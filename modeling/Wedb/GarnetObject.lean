/-
The binary format in which lists, hashes, sets and sorted sets are stored: a type byte and a
payload. The decoders return nothing for every error, as every caller folds them into one.
-/

import Wedb.Bytes

namespace Wedb.Object

open Option List

def leValue : Bytes → Nat
  | [] => 0
  | byte :: rest => byte.toNat + 256 * leValue rest

def leBytes : Nat → Nat → Bytes
  | 0, _ => []
  | width + 1, number => UInt8.ofNat number :: leBytes width (number / 256)

def splitExact (count : Nat) (bytes : Bytes) : Option (Bytes × Bytes) :=
  if count ≤ bytes.length then some (bytes.take count, bytes.drop count) else none

def readWord (width : Nat) (bytes : Bytes) : Option (Nat × Bytes) :=
  (splitExact width bytes).map fun pair => (leValue pair.1, pair.2)

theorem leBytes_length (width number : Nat) : (leBytes width number).length = width := by
  induction width generalizing number with
  | zero => rfl
  | succ width ih => rw [leBytes, length_cons, ih]

theorem leValue_leBytes (width number : Nat) :
    leValue (leBytes width number) = number % 256 ^ width := by
  induction width generalizing number with
  | zero => rw [leBytes, leValue, Nat.pow_zero, Nat.mod_one]
  | succ width ih =>
    rw [leBytes, leValue, ih, Nat.pow_succ', Nat.mod_mul]
    congr 1

theorem splitExact_append (head rest : Bytes) :
    splitExact head.length (head ++ rest) = some (head, rest) := by
  simp [splitExact]

theorem readWord_leBytes (width number : Nat) (rest : Bytes) :
    readWord width (leBytes width number ++ rest) = some (number % 256 ^ width, rest) := by
  have split := splitExact_append (leBytes width number) rest
  rw [leBytes_length] at split
  rw [readWord, split, map_some, leValue_leBytes]

def readItems : Nat → Bytes → Option (List Bytes)
  | 0, _ => some []
  | count + 1, bytes => do
    let (length, payload) ← readWord 4 bytes
    if 2 ^ 31 ≤ length then none
    else
      let (item, rest) ← splitExact length payload
      let items ← readItems count rest
      some (item :: items)

/-- `ListObject::deserialize`. -/
def deserializeList (payload : Bytes) : Option (List Bytes) := do
  let (count, rest) ← readWord 4 payload
  if 2 ^ 31 ≤ count then none
  else if (payload.length - 4) / 4 < count then none
  else readItems count rest

def serializeItem (item : Bytes) : Bytes := leBytes 4 item.length ++ item

variable (items : List Bytes)

def serializeList : Bytes :=
  leBytes 4 items.length ++ items.flatMap serializeItem

def formatVersion : UInt8 := 1

/-- The member loop of `SetObject::deserialize`. -/
def readMembers : Nat → Bytes → Option (List Bytes × Bytes)
  | 0, bytes => some ([], bytes)
  | count + 1, bytes => do
    let (length, payload) ← readWord 4 bytes
    let (member, rest) ← splitExact length payload
    let (members, trailing) ← readMembers count rest
    some (member :: members, trailing)

def readHeader (entryLength : Nat) (payload : Bytes) : Option (Nat × Bytes) :=
  match payload with
  | [] => none
  | version :: bytes => do
    let (count, rest) ← readWord 4 bytes
    if version ≠ formatVersion then none
    else if rest.length / entryLength < count then none
    else some (count, rest)

/-- `SetObject::deserialize`; the members are kept once each. -/
def deserializeSet (payload : Bytes) : Option (List Bytes) := do
  let (count, bytes) ← readHeader 4 payload
  let (members, trailing) ← readMembers count bytes
  if trailing = [] then some members.dedup else none

/-- The length of a field or member, whose highest bit announces an expiration. -/
def splitExpirationBit (raw : Nat) : Bool × Nat := (decide (2 ^ 31 ≤ raw), raw % 2 ^ 31)

structure Entry where
  name : Bytes
  payload : Bytes
  expiration : Option Nat
  deriving DecidableEq

def readExpiration (present : Bool) (bytes : Bytes) : Option (Option Nat × Bytes) :=
  if present then (readWord 8 bytes).map fun pair => (some pair.1, pair.2)
  else some (none, bytes)

/-- The field loop of `HashObject::deserialize`. -/
def readFields : Nat → Bytes → Option (List Entry × Bytes)
  | 0, bytes => some ([], bytes)
  | count + 1, bytes => do
    let (rawLength, afterLength) ← readWord 4 bytes
    let (expires, length) := splitExpirationBit rawLength
    let (name, afterName) ← splitExact length afterLength
    let (valueLength, afterValueLength) ← readWord 4 afterName
    let (payload, afterValue) ← splitExact valueLength afterValueLength
    let (expiration, rest) ← readExpiration expires afterValue
    let (entries, trailing) ← readFields count rest
    some ({ name, payload, expiration } :: entries, trailing)

def insertField (now : Nat) (fields : List Entry) (entry : Entry) : List Entry :=
  let others := fields.filter fun field => field.name ≠ entry.name
  if entry.expiration.any fun time => decide (time ≤ now) then others else others ++ [entry]

def deserializeHash (now : Nat) (payload : Bytes) : Option (List Entry) := do
  let (count, bytes) ← readHeader 8 payload
  let (entries, _) ← readFields count bytes
  some (entries.foldl (insertField now) [])

def readScored : Nat → Bytes → Option (List Entry × Bytes)
  | 0, bytes => some ([], bytes)
  | count + 1, bytes => do
    let (payload, afterScore) ← splitExact 8 bytes
    let (rawLength, afterLength) ← readWord 4 afterScore
    let (expires, length) := splitExpirationBit rawLength
    let (name, afterName) ← splitExact length afterLength
    let (expiration, rest) ← readExpiration expires afterName
    let (entries, trailing) ← readScored count rest
    some ({ name, payload, expiration } :: entries, trailing)

def insertScored (scoreIsNan : Bytes → Bool) (now : Nat) (members : List Entry) (entry : Entry) :
    Option (List Entry) :=
  if entry.expiration.any fun time => decide (time ≤ now) then some members
  else if scoreIsNan entry.payload then none
  else some (members.filter (fun member => member.name ≠ entry.name) ++ [entry])

/-- `SortedSetObject::deserialize`. -/
def deserializeSortedSet (scoreIsNan : Bytes → Bool) (now : Nat) (payload : Bytes) :
    Option (List Entry) := do
  let (count, bytes) ← readHeader 12 payload
  let (entries, trailing) ← readScored count bytes
  let members ← entries.foldlM (insertScored scoreIsNan now) []
  if trailing = [] then some members else none

inductive GarnetObject
  | sortedSet (members : List Entry)
  | list (items : List Bytes)
  | hash (fields : List Entry)
  | set (members : List Bytes)
  deriving DecidableEq

def GarnetObject.asList : GarnetObject → Option (List Bytes)
  | .list items => some items
  | _ => none

/-- What decoding depends on beside the bytes: the clock, and the scores that are NaN. -/
structure DecodeContext where
  now : Nat
  scoreIsNan : Bytes → Bool

variable (context : DecodeContext)

def deserialize (bytes : Bytes) : Option GarnetObject :=
  match bytes with
  | 1 :: payload =>
    (deserializeSortedSet context.scoreIsNan context.now payload).map .sortedSet
  | 2 :: payload => (deserializeList payload).map .list
  | 3 :: payload => (deserializeHash context.now payload).map .hash
  | 4 :: payload => (deserializeSet payload).map .set
  | _ => none

def encodeList : Bytes := 2 :: serializeList items

/-- How the read paths tell an object from a string: its type byte, and that the bytes decode. -/
def looksLikeObject (bytes : Bytes) : Bool :=
  match bytes.head? with
  | some byte => decide (1 ≤ byte ∧ byte ≤ 4) && (deserialize context bytes).isSome
  | none => false

/-- The elements fit the format: every length is an `i32`. -/
def ItemsFit : Prop := ∀ item ∈ items, item.length < 2 ^ 31

variable (items : List Bytes)

theorem readItems_serialize (fit : ItemsFit items) (rest : Bytes) :
    readItems items.length (items.flatMap serializeItem ++ rest) = some items := by
  induction items with
  | nil => rfl
  | cons item items ih =>
    have short : item.length < 2 ^ 31 := fit item mem_cons_self
    have word : item.length % 256 ^ 4 = item.length := Nat.mod_eq_of_lt (by omega)
    have tail := ih fun other member => fit other (mem_cons_of_mem _ member)
    simp only [length_cons, flatMap_cons, serializeItem, append_assoc, readItems,
      readWord_leBytes, word, bind_eq_bind, bind_some, splitExact_append, tail,
      if_neg (show ¬2 ^ 31 ≤ item.length by omega)]

theorem length_le_length_serialize : 4 * items.length ≤ (items.flatMap serializeItem).length := by
  induction items with
  | nil => exact Nat.le_refl 0
  | cons item items ih =>
    simp only [length_cons, flatMap_cons, serializeItem, length_append, leBytes_length]
    omega

theorem deserializeList_serializeList (fit : ItemsFit items)
    (short : items.length < 2 ^ 31) : deserializeList (serializeList items) = some items := by
  have word : items.length % 256 ^ 4 = items.length := Nat.mod_eq_of_lt (by omega)
  have room := length_le_length_serialize items
  have read := readItems_serialize items fit []
  rw [append_nil] at read
  have header : readWord 4 (serializeList items) =
      some (items.length, items.flatMap serializeItem) := by
    rw [serializeList, readWord_leBytes, word]
  have bound : ¬((serializeList items).length - 4) / 4 < items.length := by
    simp only [serializeList, length_append, leBytes_length]
    omega
  simp only [deserializeList, header, bind_eq_bind, bind_some, if_neg bound, read,
    if_neg (show ¬2 ^ 31 ≤ items.length by omega)]

theorem deserializeList_serializeList_full
    (full : items.length = 2 ^ 31) : deserializeList (serializeList items) = none := by
  have word : items.length % 256 ^ 4 = 2 ^ 31 := (congrArg (· % 256 ^ 4) full).trans (by decide)
  simp only [deserializeList, serializeList, readWord_leBytes, word, bind_eq_bind,
    bind_some, if_pos (Nat.le_refl _)]

theorem readItems_fit {count : Nat} {bytes : Bytes} {items : List Bytes}
    (read : readItems count bytes = some items) : ItemsFit items ∧ items.length = count := by
  induction count generalizing bytes items with
  | zero =>
    cases read
    exact ⟨fun item member => (by cases member), rfl⟩
  | succ count ih =>
    simp only [readItems, bind_eq_bind, bind_eq_some_iff] at read
    obtain ⟨⟨length, payload⟩, -, read⟩ := read
    split at read
    · cases read
    · rename_i short
      simp only [bind_eq_some_iff] at read
      obtain ⟨⟨item, rest⟩, split, tail, readTail, equal⟩ := read
      cases equal
      obtain ⟨fit, tailLength⟩ := ih readTail
      refine ⟨?_, by rw [length_cons, tailLength]⟩
      intro other member
      rcases mem_cons.mp member with rfl | inTail
      · unfold splitExact at split
        split at split
        · cases split
          simp only [length_take]
          omega
        · cases split
      · exact fit other inTail

theorem deserializeList_fit {payload : Bytes} {items : List Bytes}
    (read : deserializeList payload = some items) : ItemsFit items ∧ items.length < 2 ^ 31 := by
  simp only [deserializeList, bind_eq_bind, bind_eq_some_iff] at read
  obtain ⟨⟨count, rest⟩, -, read⟩ := read
  split at read
  · cases read
  · rename_i short
    split at read
    · cases read
    · obtain ⟨fit, length⟩ := readItems_fit read
      exact ⟨fit, by omega⟩

end Wedb.Object
