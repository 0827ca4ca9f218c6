/-
HSCAN, SSCAN and ZSCAN on a collection that is stored compactly or flattened: chunks list the names,
possibly twice or when they are gone, and each name has its record. The scan of a compact hash
counts positions from the cursor on, so the next cursor is too small from the third page on.
-/

import Wedb.Bytes
import Wedb.Cursor

namespace Wedb.Redis

/-- What the scans take from elsewhere. A star matches all but the empty name, as the tests of
`glob_match` have it. -/
structure ScanContext where
  glob : Bytes → Bytes → Bool
  glob_star : ∀ name, glob (bytesOf "*") name = !name.isEmpty
  fastHash128 : Bytes → BitVec 128
  /-- The member and the bits of the score in the key of a sorted set's tree. -/
  decodeScoreKey : Bytes → Option (Bytes × UInt64)
  now : Nat

structure HashEntry where
  field : Bytes
  value : Bytes
  expireAt : Option Nat

def alive (now : Nat) (expireAt : Option Nat) : Bool := expireAt.all fun time => decide (now < time)

/-- `CHUNK_CAPACITY`: how many names a chunk lists at most. -/
def chunkCapacity : Nat := 128

/-- The chunks that list the names of a flattened collection; one that does not decode is skipped.
-/
structure ChunkIndex where
  maxChunkId : Nat
  readChunk : Nat → Option (List Bytes)
  maxChunkId_lt : maxChunkId < 2 ^ 32
  length_le : ∀ id names, readChunk id = some names → names.length ≤ chunkCapacity

def ChunkIndex.Lists (index : ChunkIndex) (name : Bytes) : Prop :=
  ∃ id names, id ≤ index.maxChunkId ∧ index.readChunk id = some names ∧ name ∈ names

def bigEndian (bytes : Bytes) : Nat := bytes.foldl (fun value byte => value * 256 + byte.toNat) 0

/-- `FieldValueCodec::decode`: the time to live and the value. -/
def decodeFieldValue : Bytes → Option (Option Nat × Bytes)
  | 0 :: value => some (none, value)
  | 1 :: rest =>
    if rest.length < 8 then none else some (some (bigEndian (rest.take 8)), rest.drop 8)
  | _ => none

structure FlattenedHash where
  index : ChunkIndex
  readField : Bytes → Option Bytes
  indexed : ∀ field raw, readField field = some raw → index.Lists field

structure FlattenedSet where
  index : ChunkIndex
  containsMember : Bytes → Bool
  indexed : ∀ member, containsMember member = true → index.Lists member

inductive HashEncoding
  | compact (payload : Option (List HashEntry))
  | flattened (hash : FlattenedHash)

inductive SetEncoding
  | compact (payload : Option (List Bytes))
  | flattened (set : FlattenedSet)

inductive ZSetEncoding
  | compact (payload : Option (List (Bytes × UInt64)))
  | flattened (keys : List Bytes)

def HashEncoding.Live (now : Nat) (item : Bytes × Bytes) : HashEncoding → Prop
  | .compact payload => ∃ entry ∈ payload.getD [], alive now entry.expireAt = true ∧
      item = (entry.field, entry.value)
  | .flattened hash => ∃ raw expireAt, hash.readField item.1 = some raw ∧
      decodeFieldValue raw = some (expireAt, item.2) ∧ alive now expireAt = true

def SetEncoding.Live (member : Bytes) : SetEncoding → Prop
  | .compact payload => member ∈ payload.getD []
  | .flattened set => set.containsMember member = true

def ZSetEncoding.entries (context : ScanContext) : ZSetEncoding → List (Option (Bytes × UInt64))
  | .compact payload => (payload.getD []).map some
  | .flattened keys => keys.map context.decodeScoreKey

structure StoredHash where
  size : Nat
  encoding : HashEncoding
  empty : size = 0 → ∀ now item, ¬encoding.Live now item

structure StoredSet where
  size : Nat
  encoding : SetEncoding
  empty : size = 0 → ∀ member, ¬encoding.Live member

/-- A stored sorted set: its metadata counts its members, and its keys decode. -/
structure StoredZSet (context : ScanContext) where
  size : Nat
  encoding : ZSetEncoding
  size_eq : size = (encoding.entries context).length
  decodes : none ∉ encoding.entries context

/-- The largest page asked for; zero stands for ten. -/
def scanLimit (count : Nat) : Nat := if count = 0 then 10 else count

theorem scanLimit_pos (count : Nat) : 0 < scanLimit count := by
  unfold scanLimit
  split <;> omega

def hscanLoop (found : HashEntry → Bool) (limit : Nat) :
    Nat → List HashEntry → List (Bytes × Bytes) → Nat × List (Bytes × Bytes)
  | _, [], items => (0, items)
  | position, entry :: rest, items =>
    if found entry then
      let items := items ++ [(entry.field, entry.value)]
      if limit ≤ items.length then (if rest.isEmpty then 0 else position + 1, items)
      else hscanLoop found limit (position + 1) rest items
    else hscanLoop found limit (position + 1) rest items

/-- The loop of `sscan` over the members of a compact set. -/
def sscanLoop (found : Bytes → Bool) (limit cursor total : Nat) :
    Nat → List Bytes → List Bytes → Nat × List Bytes
  | _, [], items => (0, items)
  | index, member :: rest, items =>
    if index < cursor then sscanLoop found limit cursor total (index + 1) rest items
    else
      let items := if found member then items ++ [member] else items
      if limit ≤ items.length then (if index + 1 < total then index + 1 else 0, items)
      else sscanLoop found limit cursor total (index + 1) rest items

def zscanLoop (found : Bytes → Bool) (batch : Nat) : List (Option (Bytes × UInt64)) → Nat →
    List (Bytes × UInt64) → Nat × List (Bytes × UInt64)
  | [], scanned, items => (scanned, items)
  | none :: rest, scanned, items => zscanLoop found batch rest scanned items
  | some entry :: rest, scanned, items =>
    let items := if found entry.1 then items ++ [entry] else items
    if batch ≤ scanned + 1 then (scanned + 1, items)
    else zscanLoop found batch rest (scanned + 1) items

section

variable {α : Type}

structure ScanState (α : Type) where
  seen : List (BitVec 128)
  items : List α

def saturate (value : Nat) : Nat := min value (2 ^ 64 - 1)

def chunkCursor (maxChunkId chunkId element total : Nat) : Nat :=
  if element + 1 < total ∧ element + 1 < chunkCapacity then
    saturate (saturate (chunkId * chunkCapacity) + (element + 1))
  else if chunkId < maxChunkId then saturate (saturate (chunkId + 1) * chunkCapacity)
  else 0

def scanChunk (context : ScanContext) (visit : Bytes → Option α) (limit skip : Nat)
    (cursorAfter : Nat → Nat) : Nat → List Bytes → ScanState α →
    Except (Nat × List α) (ScanState α)
  | _, [], state => .ok state
  | element, name :: rest, state =>
    if element < skip then scanChunk context visit limit skip cursorAfter (element + 1) rest state
    else if context.fastHash128 name ∈ state.seen then
      scanChunk context visit limit skip cursorAfter (element + 1) rest state
    else
      let seen := context.fastHash128 name :: state.seen
      match visit name with
      | none => scanChunk context visit limit skip cursorAfter (element + 1) rest
          ⟨seen, state.items⟩
      | some item =>
        let items := state.items ++ [item]
        if limit ≤ items.length then .error (cursorAfter element, items)
        else scanChunk context visit limit skip cursorAfter (element + 1) rest ⟨seen, items⟩

def scanChunks (context : ScanContext) (index : ChunkIndex) (visit : Bytes → Option α)
    (limit startChunk startElement : Nat) : List Nat → ScanState α → Nat × List α
  | [], state => (0, state.items)
  | chunkId :: rest, state =>
    match index.readChunk chunkId with
    | none => scanChunks context index visit limit startChunk startElement rest state
    | some names =>
      match scanChunk context visit limit (if chunkId = startChunk then startElement else 0)
        (chunkCursor index.maxChunkId chunkId · names.length) 0 names state with
      | .error result => result
      | .ok state => scanChunks context index visit limit startChunk startElement rest state

def scanFlattened (context : ScanContext) (index : ChunkIndex) (visit : Bytes → Option α)
    (count cursor : Nat) : Nat × List α :=
  let chunk := cursor / chunkCapacity
  if index.maxChunkId < chunk then (0, [])
  else
    scanChunks context index visit (scanLimit count) chunk (cursor % chunkCapacity)
      (List.range' chunk (index.maxChunkId + 1 - chunk)) ⟨[], []⟩

end

section

variable (context : ScanContext) (pattern : Option Bytes) (count cursor : Nat)

def matchesPattern (name : Bytes) : Bool :=
  match pattern with
  | some pattern => context.glob pattern name
  | none => true

def matchesOrStar (name : Bytes) : Bool := context.glob (pattern.getD (bytesOf "*")) name

def visitField (hash : FlattenedHash) (field : Bytes) : Option (Bytes × Bytes) :=
  match hash.readField field with
  | none => none
  | some raw =>
    match decodeFieldValue raw with
    | none => none
    | some (expireAt, value) =>
      if alive context.now expireAt then
        if matchesPattern context pattern field then some (field, value) else none
      else none

def visitMember (set : FlattenedSet) (member : Bytes) : Option Bytes :=
  if set.containsMember member then
    if matchesPattern context pattern member then some member else none
  else none

/-- `hscan` on what the loader found under the key. -/
def hscan (loaded : Option StoredHash) : Nat × List (Bytes × Bytes) :=
  match loaded with
  | none => (0, [])
  | some hash =>
    if hash.size = 0 then (0, [])
    else
      match hash.encoding with
      | .compact none => (0, [])
      | .compact (some entries) =>
        hscanLoop (fun entry => matchesOrStar context pattern entry.field) (scanLimit count) 0
          ((entries.filter fun entry => alive context.now entry.expireAt).drop cursor) []
      | .flattened hash =>
        scanFlattened context hash.index (visitField context pattern hash) count cursor

def sscan (loaded : Option StoredSet) : Nat × List Bytes :=
  match loaded with
  | none => (0, [])
  | some set =>
    if set.size = 0 then (0, [])
    else
      match set.encoding with
      | .compact none => (0, [])
      | .compact (some members) =>
        if members.length ≤ cursor then (0, [])
        else sscanLoop (matchesOrStar context pattern) (scanLimit count) cursor members.length 0
          members []
      | .flattened set =>
        scanFlattened context set.index (visitMember context pattern set) count cursor

def zscan (loaded : Option (StoredZSet context)) : Nat × List (Bytes × UInt64) :=
  match loaded with
  | none => (0, [])
  | some zset =>
    if zset.size = 0 ∨ zset.size ≤ cursor then (0, [])
    else
      let page := zscanLoop (matchesPattern context pattern) (max count 10)
        ((zset.encoding.entries context).drop cursor) 0 []
      (if zset.size ≤ cursor + page.1 then 0 else cursor + page.1, page.2)

end

end Wedb.Redis
