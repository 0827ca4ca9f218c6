/-
The purge of a compact hash. One pass moves the entries that stay to the front of the buffer from
which it still reads the others. Every index carries the proof that it is in range.
-/

import Wedb.GarnetObject
import Mathlib.Data.List.Nodup

namespace Wedb.Redis.CompactHash

open List Object

/-- `BufferTooShort`. -/
structure TooShort where
  expected : Nat
  actual : Nat
  deriving DecidableEq

/-- `&buf[start..stop]`, where that does not panic. -/
def slice (buf : Bytes) (start stop : Nat) (_ : start ≤ stop ∧ stop ≤ buf.length) : Bytes :=
  (buf.drop start).take (stop - start)

/-- The big-endian number in a slice. -/
def number (buf : Bytes) (start width : Nat) (inside : start + width ≤ buf.length) : Nat :=
  leValue (slice buf start (start + width) ⟨Nat.le_add_right .., inside⟩).reverse

/-- What the loop reads of an entry, which lies in the buffer. -/
structure Found (buf : Bytes) (offset : Nat) where
  length : Nat
  expired : Bool
  field : Bytes
  inside : offset + length ≤ buf.length

def readEntry (buf : Bytes) (now offset : Nat) : Except TooShort (Found buf offset) :=
  if head : offset + 4 ≤ buf.length then
    let fieldLen := number buf offset 2 (by omega)
    let fieldEnd := offset + 2 + fieldLen
    if middle : fieldEnd + 2 ≤ buf.length then
      let valueLen := number buf fieldEnd 2 middle
      let valueEnd := fieldEnd + 2 + valueLen
      if last : valueEnd + 1 ≤ buf.length then
        let flag := number buf valueEnd 1 last
        let entryLen := 2 + fieldLen + 2 + valueLen + 1 + if flag ≠ 0 then 8 else 0
        if whole : offset + entryLen ≤ buf.length then
          have marks (marked : flag ≠ 0) : valueEnd + 1 + 8 ≤ buf.length := by
            simp only [entryLen, if_pos marked] at whole
            omega
          let expired := if marked : flag ≠ 0 then
              decide (number buf (valueEnd + 1) 8 (marks marked) ≤ now) else false
          .ok ⟨entryLen, expired, slice buf (offset + 2) fieldEnd (by omega), whole⟩
        else .error ⟨offset + entryLen, buf.length⟩
      else .error ⟨valueEnd + 1, buf.length⟩
    else .error ⟨fieldEnd + 2, buf.length⟩
  else .error ⟨offset + 4, buf.length⟩

structure Purge where
  buf : Bytes
  targets : List Bytes
  offset : Nat := 2
  writeOffset : Nat := 2
  purged : Nat := 0
  deleted : Nat := 0
  newCount : Nat := 0
  begun : 2 ≤ writeOffset
  behind : writeOffset ≤ offset
  within : offset ≤ buf.length

/-- An entry is copied to its new place, unless it is there. -/
def moveEntry (buf : Bytes) (start stop target : Nat) (inside : start ≤ stop ∧ stop ≤ buf.length)
    (_ : target + (stop - start) ≤ buf.length) : Bytes :=
  if target = start then buf
  else buf.take target ++ slice buf start stop inside ++ buf.drop (target + (stop - start))

theorem length_slice {buf : Bytes} {start stop : Nat} (inside : start ≤ stop ∧ stop ≤ buf.length) :
    (slice buf start stop inside).length = stop - start := by
  rw [slice, length_take, length_drop]
  omega

def Purge.step (now : Nat) (state : Purge) : Except TooShort Purge :=
  (readEntry state.buf now state.offset).map fun found =>
    have behind := state.behind
    have inside := found.inside
    if found.expired then
      { state with
        offset := state.offset + found.length, purged := state.purged + 1
        behind := by omega, within := inside }
    else if found.field ∈ state.targets then
      { state with
        offset := state.offset + found.length, deleted := state.deleted + 1
        targets := state.targets.filter (· ≠ found.field)
        behind := by omega, within := inside }
    else
      { state with
        buf := moveEntry state.buf state.offset (state.offset + found.length) state.writeOffset
          (by omega) (by omega)
        offset := state.offset + found.length
        writeOffset := state.writeOffset + found.length, newCount := state.newCount + 1
        begun := Nat.le_add_right_of_le state.begun, behind := by omega
        within := by
          unfold moveEntry
          split_ifs
          · exact inside
          · simp only [length_append, length_take, length_drop, length_slice]
            omega }

def Purge.loop (now : Nat) : Nat → Purge → Except TooShort Unit × Purge
  | 0, state => (.ok (), state)
  | count + 1, state =>
    match state.step now with
    | .error error => (.error error, state)
    | .ok after => after.loop now count

def beBytes (width value : Nat) : Bytes := (leBytes width value).reverse

def setCount (buf : Bytes) (count : Nat) (_ : 2 ≤ buf.length) : Bytes :=
  beBytes 2 count ++ buf.drop 2

theorem Purge.two_le (state : Purge) : 2 ≤ (state.buf.take state.writeOffset).length := by
  rw [length_take]
  exact le_min state.begun (state.begun.trans (state.behind.trans state.within))

/-- `compact_hash_purge_and_delete`: the result and the buffer. -/
def compactHashPurgeAndDelete (buf : Bytes) (fields : List Bytes) (now : Nat) :
    Except TooShort (Nat × Nat) × Bytes :=
  if long : 2 ≤ buf.length then
    let start : Purge :=
      { buf := buf, targets := fields, begun := le_rfl, behind := le_rfl, within := long }
    match start.loop now (number buf 0 2 long) with
    | (.error error, state) => (.error error, state.buf)
    | (.ok (), state) =>
      (.ok (state.purged, state.deleted),
        if 0 < state.purged + state.deleted then
          setCount (state.buf.take state.writeOffset) state.newCount state.two_le
        else state.buf)
  else (.ok (0, 0), buf)

structure HashEntry where
  field : Bytes
  value : Bytes
  expireAt : Option Nat

/-- An expiry is marked by any byte other than zero. -/
def encodeExpiry (mark : UInt8) (expireAt : Option Nat) : Bytes :=
  expireAt.elim [0] fun expiry => mark :: beBytes 8 expiry

def HashEntry.encode (mark : UInt8) (entry : HashEntry) : Bytes :=
  beBytes 2 entry.field.length ++ (entry.field ++
    (beBytes 2 entry.value.length ++ (entry.value ++ encodeExpiry mark entry.expireAt)))

def encode (mark : UInt8) (entries : List HashEntry) : Bytes :=
  beBytes 2 entries.length ++ entries.flatMap (HashEntry.encode mark)

structure HashEntry.Fits (entry : HashEntry) : Prop where
  field : entry.field.length < 2 ^ 16
  value : entry.value.length < 2 ^ 16
  expiry : ∀ expiry ∈ entry.expireAt, expiry < 2 ^ 64

def HashEntry.expired (now : Nat) (entry : HashEntry) : Bool := entry.expireAt.any (· ≤ now)

variable {buf part rest : Bytes} {start stop width now offset : Nat} {entry : HashEntry}
  {mark : UInt8}

@[simp] theorem length_beBytes (width value : Nat) : (beBytes width value).length = width := by
  rw [beBytes, length_reverse, leBytes_length]

theorem drop_past (ahead : buf.drop start = part ++ rest) (size : part.length = width) :
    buf.drop (start + width) = rest := by
  rw [← drop_drop, ahead, ← size, drop_left]

theorem slice_at (ahead : buf.drop start = part ++ rest) (size : part.length = width)
    (inside : start ≤ start + width ∧ start + width ≤ buf.length) :
    slice buf start (start + width) inside = part := by
  rw [slice, ahead, Nat.add_sub_cancel_left, ← size, take_left]

theorem number_at {value : Nat} (ahead : buf.drop start = beBytes width value ++ rest)
    (small : value < 256 ^ width) (inside : start + width ≤ buf.length) :
    number buf start width inside = value := by
  rw [number, slice_at ahead (length_beBytes ..), beBytes, reverse_reverse, leValue_leBytes,
    Nat.mod_eq_of_lt small]

theorem readExpiry_encode {expireAt : Option Nat} (marked : mark ≠ 0)
    (small : ∀ expiry ∈ expireAt, expiry < 2 ^ 64)
    (ahead : buf.drop start = encodeExpiry mark expireAt ++ rest) :
    ∃ flag, (∀ inside, number buf start 1 inside = flag) ∧
      (encodeExpiry mark expireAt).length = 1 + (if flag ≠ 0 then 8 else 0) ∧
      ∀ inside : flag ≠ 0 → start + 1 + 8 ≤ buf.length,
        (if marked : flag ≠ 0 then decide (number buf (start + 1) 8 (inside marked) ≤ now)
          else false) = expireAt.any (· ≤ now) := by
  cases expireAt with
  | none => exact ⟨0, number_at (show _ = beBytes 1 0 ++ rest from ahead) (by decide), rfl,
      fun _ => rfl⟩
  | some expiry =>
    have atFlag : buf.drop start = beBytes 1 mark.toNat ++ (beBytes 8 expiry ++ rest) := by
      simp [ahead, encodeExpiry, beBytes, leBytes]
    have nonzero : mark.toNat ≠ 0 := fun zero => marked (UInt8.toNat_inj.mp zero)
    refine ⟨mark.toNat, number_at atFlag mark.toNat_lt, ?_, fun inside => ?_⟩
    · rw [if_pos nonzero, encodeExpiry, Option.elim, length_cons, length_beBytes]
    · rw [dif_pos nonzero, number_at (drop_past atFlag (length_beBytes ..)) (small expiry rfl)]
      rfl

theorem readEntry_encode (fits : entry.Fits) (marked : mark ≠ 0)
    (ahead : buf.drop offset = entry.encode mark ++ rest) :
    ∃ found, readEntry buf now offset = .ok found ∧ found.length = (entry.encode mark).length ∧
      found.expired = entry.expired now ∧ found.field = entry.field := by
  simp only [HashEntry.encode, append_assoc, length_append, length_beBytes] at ahead ⊢
  have size := congrArg length ahead
  simp only [length_drop, length_append, length_beBytes] at size
  have atField := drop_past ahead (length_beBytes ..)
  have atValueLen := drop_past atField rfl
  have atFlag := drop_past (drop_past atValueLen (length_beBytes ..)) rfl
  obtain ⟨flag, read, tail, expired⟩ := readExpiry_encode marked fits.expiry atFlag
  unfold readEntry
  rw [dif_pos (by omega)]
  simp only [number_at ahead fits.field, number_at atValueLen fits.value, slice_at atField rfl,
    read]
  rw [dif_pos (by omega), dif_pos (by omega), dif_pos (by omega)]
  exact ⟨_, rfl, by dsimp only; omega, expired _, rfl⟩

variable {front junk head : Bytes} {read others : List HashEntry} {state : Purge}
  {fields : List Bytes}

theorem moveEntry_eq {target : Nat} (whole : buf = front ++ (junk ++ (part ++ rest)))
    (writes : target = front.length) (reads : start = front.length + junk.length)
    (size : width = part.length) (inside : start ≤ start + width ∧ start + width ≤ buf.length)
    (room : target + (start + width - start) ≤ buf.length) :
    moveEntry buf start (start + width) target inside room =
      front ++ part ++ ((junk ++ part).drop width ++ rest) := by
  have ahead : buf.drop start = part ++ rest := by
    rw [whole, reads, ← length_append, ← append_assoc, drop_left]
  have behind : buf.drop (front.length + width) = (junk ++ part).drop width ++ rest := by
    rw [whole, ← drop_drop, drop_left, ← append_assoc, drop_append_of_le_length (by simp [size])]
  unfold moveEntry
  split_ifs
  · have empty : junk = [] := length_eq_zero_iff.mp (by omega)
    simp [whole, empty, size]
  · rw [slice_at ahead size.symm, Nat.add_sub_cancel_left, writes, behind, whole, take_left]

def HashEntry.named (fields : List Bytes) (now : Nat) (entry : HashEntry) : Bool :=
  !entry.expired now && decide (entry.field ∈ fields)

def HashEntry.stays (fields : List Bytes) (now : Nat) (entry : HashEntry) : Bool :=
  !entry.expired now && decide (entry.field ∉ fields)

/-- The buffer in the middle of a pass: the entries that stay of those read, bytes of no use, and
the entries still to be read. -/
structure Purge.Holds (fields : List Bytes) (now : Nat) (mark : UInt8) (head : Bytes)
    (read rest : List HashEntry) (state : Purge) : Prop where
  layout : ∃ front junk,
    front = head ++ (read.filter (HashEntry.stays fields now)).flatMap (HashEntry.encode mark) ∧
      state.buf = front ++ (junk ++ rest.flatMap (HashEntry.encode mark)) ∧
      state.writeOffset = front.length ∧ state.offset = front.length + junk.length ∧
      (state.purged + state.deleted = 0 → junk = [])
  purged : state.purged = read.countP (HashEntry.expired now)
  deleted : state.deleted = read.countP (HashEntry.named fields now)
  count : state.newCount = read.countP (HashEntry.stays fields now)
  targets : ∀ entry ∈ rest, entry.field ∈ state.targets ↔ entry.field ∈ fields

theorem Purge.Holds.step (marked : mark ≠ 0) (fits : entry.Fits)
    (distinct : ∀ other ∈ others, other.field ≠ entry.field)
    (holds : state.Holds fields now mark head read (entry :: others)) :
    ∃ after, state.step now = .ok after ∧
      after.Holds fields now mark head (read ++ [entry]) others := by
  obtain ⟨⟨front, junk, kept, whole, writes, reads, fresh⟩, purged, deleted, count, targets⟩ :=
    holds
  rw [flatMap_cons] at whole
  have longer : state.buf =
      front ++ (junk ++ entry.encode mark ++ others.flatMap (HashEntry.encode mark)) := by
    rw [append_assoc junk, whole]
  have ahead : state.buf.drop state.offset =
      entry.encode mark ++ others.flatMap (HashEntry.encode mark) := by
    rw [whole, reads, ← length_append, ← append_assoc, drop_left]
  obtain ⟨found, isRead, size, expired, field⟩ := readEntry_encode fits marked ahead
  have moved : state.offset + found.length = front.length + (junk ++ entry.encode mark).length := by
    rw [length_append]
    omega
  have later other (member : other ∈ others) := targets other (mem_cons_of_mem _ member)
  unfold Purge.step
  rw [isRead]
  refine ⟨_, rfl, ?_⟩
  simp only [expired, field, targets entry mem_cons_self]
  split_ifs with gone named
  · refine ⟨⟨front, junk ++ entry.encode mark, ?_, longer, writes, moved,
      fun none => absurd none (by simp)⟩, ?_, ?_, ?_, later⟩
    · simp [kept, HashEntry.stays, gone]
    · simp [purged, gone]
    · simp [deleted, HashEntry.named, gone]
    · simp [count, HashEntry.stays, gone]
  · refine ⟨⟨front, junk ++ entry.encode mark, ?_, longer, writes, moved,
      fun none => absurd none (by simp)⟩, ?_, ?_, ?_, fun other member => ?_⟩
    · simp [kept, HashEntry.stays, named]
    · simp [purged, gone]
    · simp [deleted, HashEntry.named, gone, named]
    · simp [count, HashEntry.stays, named]
    · simp [later other member, distinct other member]
  · refine ⟨⟨front ++ entry.encode mark, (junk ++ entry.encode mark).drop found.length, ?_,
      ?_, ?_, ?_, fun none => ?_⟩, ?_, ?_, ?_, later⟩
    · simp [kept, HashEntry.stays, gone, named]
    · dsimp only
      rw [moveEntry_eq whole writes reads size]
    · rw [length_append, ← writes, ← size]
    · rw [length_drop, length_append, length_append]
      dsimp only
      omega
    · simp [fresh none, size]
    · simp [purged, gone]
    · simp [deleted, HashEntry.named, named]
    · simp [count, HashEntry.stays, gone, named]

theorem Purge.Holds.loop (marked : mark ≠ 0) (fits : ∀ entry ∈ others, entry.Fits)
    (distinct : (others.map HashEntry.field).Nodup)
    (holds : state.Holds fields now mark head read others) :
    ∃ after, state.loop now others.length = (.ok (), after) ∧
      after.Holds fields now mark head (read ++ others) [] := by
  induction others generalizing read state with
  | nil => exact ⟨state, rfl, (append_nil read).symm ▸ holds⟩
  | cons entry others ih =>
    obtain ⟨apart, rest⟩ := nodup_cons.mp distinct
    obtain ⟨after, stepped, held⟩ := holds.step marked (fits entry mem_cons_self)
      fun other member same => apart (same ▸ mem_map_of_mem member)
    obtain ⟨last, looped, finished⟩ := ih
      (fun other member => fits other (mem_cons_of_mem _ member)) rest held
    refine ⟨last, ?_, by rwa [append_assoc] at finished⟩
    rw [length_cons, Purge.loop, stepped]
    exact looped

/-- A buffer that encodes entries with distinct fields is left as the encoding of those that stay,
and the numbers of the others are returned. -/
theorem purge_filters (marked : mark ≠ 0) {entries : List HashEntry} (few : entries.length < 2 ^ 16)
    (fits : ∀ entry ∈ entries, entry.Fits) (distinct : (entries.map HashEntry.field).Nodup)
    (fields : List Bytes) (now : Nat) :
    compactHashPurgeAndDelete (encode mark entries) fields now =
      (.ok (entries.countP (HashEntry.expired now), entries.countP (HashEntry.named fields now)),
        encode mark (entries.filter (HashEntry.stays fields now))) := by
  have long : 2 ≤ (encode mark entries).length := by simp [encode]
  have start : Purge.Holds fields now mark (beBytes 2 entries.length) [] entries
      ⟨encode mark entries, fields, 2, 2, 0, 0, 0, le_rfl, le_rfl, long⟩ :=
    ⟨⟨_, [], rfl, by simp [encode], by simp, by simp, fun _ => rfl⟩, rfl, rfl, rfl,
      fun _ _ => Iff.rfl⟩
  obtain ⟨after, looped, ⟨front, junk, kept, whole, writes, -, fresh⟩, purged, deleted, count, -⟩ :=
    start.loop marked fits distinct
  have counted : number (encode mark entries) 0 2 long = entries.length :=
    number_at (show (encode mark entries).drop 0 = _ from rfl) few long
  unfold compactHashPurgeAndDelete
  rw [dif_pos long]
  dsimp only
  rw [counted, looped]
  dsimp only
  rw [nil_append] at purged deleted count kept
  refine Prod.ext (by rw [purged, deleted]) ?_
  dsimp only
  split_ifs with gone
  · rw [setCount, whole, writes, take_left, kept, count, drop_left' (length_beBytes ..), encode,
      countP_eq_length_filter]
  · have zero : entries.countP (HashEntry.expired now) = 0 ∧
        entries.countP (HashEntry.named fields now) = 0 := by omega
    have all : entries.filter (HashEntry.stays fields now) = entries := by
      refine filter_eq_self.mpr fun entry member => ?_
      have live := countP_eq_zero.mp zero.1 entry member
      have free := countP_eq_zero.mp zero.2 entry member
      simpa [HashEntry.stays, HashEntry.named, live] using free
    rw [whole, fresh (Nat.eq_zero_of_not_pos gone), kept, all]
    simp [encode]

theorem purge_filters_three :
    compactHashPurgeAndDelete
      (encode 1 [⟨[97], [49], some 5⟩, ⟨[98], [50], none⟩, ⟨[99], [51], some 9⟩]) [[98]] 7 =
        (.ok (1, 1), encode 1 [⟨[99], [51], some 9⟩]) := by
  refine purge_filters (by decide) (by decide) (fun entry member => ?_) (by decide) [[98]] 7
  simp only [mem_cons, not_mem_nil, or_false] at member
  rcases member with rfl | rfl | rfl <;> exact ⟨by decide, by decide, by decide⟩

end Wedb.Redis.CompactHash
