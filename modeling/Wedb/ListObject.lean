/-
The list object. Its operations are stated on the sequence of elements, which the pages of the
source partition.
-/

import Wedb.Bytes

namespace Wedb.Object.ListObject

inductive InsertPosition
  | before
  | after
  deriving DecidableEq

def lpush (values items : List Bytes) : List Bytes :=
  values.foldl (fun items value => value :: items) items

def rpush (values items : List Bytes) : List Bytes := items ++ values

/-- `ListObject::lpop`: the popped elements and those that stay. -/
def lpop (count : Nat) (items : List Bytes) : List Bytes × List Bytes :=
  (items.take count, items.drop count)

def rpop (count : Nat) (items : List Bytes) : List Bytes × List Bytes :=
  (items.reverse.take count, (items.reverse.drop count).reverse)

/-- `pop_front_inner` or `pop_back_inner`. -/
def popOne (fromLeft : Bool) (items : List Bytes) : Option (Bytes × List Bytes) :=
  if fromLeft then
    match items with
    | [] => none
    | item :: rest => some (item, rest)
  else
    match items.reverse with
    | [] => none
    | item :: rest => some (item, rest.reverse)

/-- `push_front_inner` or `push_back_inner`. -/
def pushOne (toLeft : Bool) (item : Bytes) (items : List Bytes) : List Bytes :=
  if toLeft then item :: items else items ++ [item]

def lmove (fromLeft toLeft : Bool) (source destination : List Bytes) :
    Option (Bytes × List Bytes × List Bytes) :=
  (popOne fromLeft source).map fun popped =>
    (popped.1, popped.2, pushOne toLeft popped.1 destination)

def rotate (fromLeft toLeft : Bool) (items : List Bytes) : Option (Bytes × List Bytes) :=
  if fromLeft = toLeft then
    (if toLeft then items.head? else items.getLast?).map fun item => (item, items)
  else (popOne fromLeft items).map fun popped => (popped.1, pushOne toLeft popped.1 popped.2)

def normalizeIndex (length : Nat) (index : Int) : Option Nat :=
  let absolute := if 0 ≤ index then index else length + index
  if 0 ≤ absolute ∧ absolute < length then some absolute.toNat else none

def normalizeRange (length : Nat) (start stop : Int) : Option (Nat × Nat) :=
  if length = 0 then none
  else
    let first : Int := if start < 0 then max (length + start) 0 else start
    let last : Int := if stop < 0 then length + stop else min stop (length - 1)
    if last < first then none else some (first.toNat, last.toNat)

def lset (index : Int) (value : Bytes) (items : List Bytes) : Option (List Bytes) :=
  (normalizeIndex items.length index).map fun position => items.set position value

def ltrim (start stop : Int) (items : List Bytes) : List Bytes :=
  match normalizeRange items.length start stop with
  | none => []
  | some (first, last) => (items.drop first).take (last + 1 - first)

def removeFirst (value : Bytes) : Nat → List Bytes → List Bytes
  | 0, items => items
  | _, [] => []
  | quota + 1, item :: items =>
    if item = value then removeFirst value quota items
    else item :: removeFirst value (quota + 1) items

def lrem (count : Int) (value : Bytes) (items : List Bytes) : Nat × List Bytes :=
  let kept :=
    if count = 0 then items.filter (· ≠ value)
    else if 0 < count then removeFirst value count.toNat items
    else if items.length ≤ count.natAbs then items.filter (· ≠ value)
    else (removeFirst value count.natAbs items.reverse).reverse
  (items.length - kept.length, kept)

def linsert (pivot value : Bytes) (position : InsertPosition) : List Bytes → Option (List Bytes)
  | [] => none
  | item :: items =>
    if item = pivot then
      match position with
      | .before => some (value :: item :: items)
      | .after => some (item :: value :: items)
    else (linsert pivot value position items).map (item :: ·)

theorem popOne_perm {fromLeft : Bool} {items rest : List Bytes} {item : Bytes}
    (popped : popOne fromLeft items = some (item, rest)) : items.Perm (item :: rest) := by
  unfold popOne at popped
  split at popped
  · split at popped
    · cases popped
    · cases popped
      exact List.Perm.refl _
  · split at popped
    · cases popped
    · rename_i first tail reversed
      cases popped
      have same : items = (item :: tail).reverse := by rw [← reversed, List.reverse_reverse]
      rw [same, List.reverse_cons]
      exact List.perm_append_singleton _ _

theorem pushOne_perm (toLeft : Bool) (item : Bytes) (items : List Bytes) :
    (pushOne toLeft item items).Perm (item :: items) := by
  unfold pushOne
  split
  · exact List.Perm.refl _
  · exact List.perm_append_singleton _ _

theorem lpop_one (items : List Bytes) : lpop 1 items =
    match popOne true items with
    | none => ([], [])
    | some (item, rest) => ([item], rest) := by
  cases items <;> rfl

theorem rpop_one (items : List Bytes) : rpop 1 items =
    match popOne false items with
    | none => ([], [])
    | some (item, rest) => ([item], rest) := by
  unfold rpop popOne
  cases items.reverse <;> rfl

end Wedb.Object.ListObject
