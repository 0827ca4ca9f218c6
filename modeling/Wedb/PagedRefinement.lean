/-
The paged list is a sequence. On a plain sequence a negative position counts from the end, and a
transfer is a repetition of single moves.
-/

import Wedb.PagedMatches
import Wedb.PagedRanges
import Wedb.Simulation

namespace Wedb.Object

open List hiding rotate

inductive ListCall
  | lpush (values : List Bytes)
  | rpush (values : List Bytes)
  | lpushx (values : List Bytes)
  | rpushx (values : List Bytes)
  | popOne (fromLeft : Bool)
  | pop (fromLeft : Bool) (count : Nat)
  | lset (index : Int) (value : Bytes)
  | linsert (pivot value : Bytes) (position : ListObject.InsertPosition)
  | ltrim (start stop : Int)
  | lrem (count : Int) (value : Bytes)
  | rotate (fromLeft toLeft : Bool)
  | transferWithin (count : Nat) (fromLeft toLeft : Bool)
  | clear
  | deserialize (buf : Bytes)
  | len
  | lindex (index : Int)
  | lrange (start stop : Int)

inductive ListMove
  | lmove (fromLeft toLeft : Bool)
  | transferTo (count : Nat) (fromLeft toLeft : Bool)

inductive ListReply
  | done
  | failed (error : ListError)
  | length (count : Nat)
  | position (index : Int)
  | item (found : Option Bytes)
  | items (found : List Bytes)

namespace PagedList

def call : ListCall → PagedList → ListReply × PagedList
  | .lpush values, list => (.length (list.lpush values).1, (list.lpush values).2)
  | .rpush values, list => (.length (list.rpush values).1, (list.rpush values).2)
  | .lpushx values, list => (.length (list.lpushx values).1, (list.lpushx values).2)
  | .rpushx values, list => (.length (list.rpushx values).1, (list.rpushx values).2)
  | .popOne fromLeft, list => (.item (list.popOne fromLeft).1, (list.popOne fromLeft).2)
  | .pop fromLeft count, list =>
    (.items (list.pop fromLeft count).1, (list.pop fromLeft count).2)
  | .lset index value, list =>
    match list.lset index value with
    | .ok list => (.done, list)
    | .error error => (.failed error, list)
  | .linsert pivot value position, list =>
    (.position (list.linsert pivot value position).1, (list.linsert pivot value position).2)
  | .ltrim start stop, list => (.done, list.ltrim start stop)
  | .lrem count value, list => (.length (list.lrem count value).1, (list.lrem count value).2)
  | .rotate fromLeft toLeft, list =>
    (.item (list.rotate fromLeft toLeft).1, (list.rotate fromLeft toLeft).2)
  | .transferWithin count fromLeft toLeft, list =>
    (.length (list.transferWithin count fromLeft toLeft).1,
      (list.transferWithin count fromLeft toLeft).2)
  | .clear, list => (.done, list.clear)
  | .deserialize buf, list =>
    match deserialize buf with
    | .ok list => (.done, list)
    | .error error => (.failed error, list)
  | .len, list => (.length list.len, list)
  | .lindex index, list => (.item (list.lindex index), list)
  | .lrange start stop, list => (.items (list.lrange start stop), list)

def move : ListMove → PagedList → PagedList → ListReply × PagedList × PagedList
  | .lmove fromLeft toLeft, source, destination =>
    (.item (lmove fromLeft toLeft source destination).1,
      (lmove fromLeft toLeft source destination).2)
  | .transferTo count fromLeft toLeft, source, destination =>
    (.length (transferTo count fromLeft toLeft source destination).1,
      (transferTo count fromLeft toLeft source destination).2)

def implementation : Simulation.Implementation ListCall ListMove ListReply PagedList :=
  ⟨call, move⟩

end PagedList

namespace Sequence

open ListObject

/-- A position from the front, or from the end if it is negative. -/
def offset (length : Nat) (index : Int) : Int :=
  if index < 0 then length + index else index

def lindex (index : Int) (items : List Bytes) : Option Bytes :=
  if 0 ≤ offset items.length index then items[(offset items.length index).toNat]? else none

def lrange (start stop : Int) (items : List Bytes) : List Bytes :=
  (items.zipIdx.filter fun entry => decide (offset items.length start ≤ entry.2 ∧
    (entry.2 : Int) ≤ offset items.length stop)).map Prod.fst

/-- Single moves, as many as asked for or until the source is empty. -/
def transfer (fromLeft toLeft : Bool) :
    Nat → List Bytes → List Bytes → Nat × List Bytes × List Bytes
  | 0, source, destination => (0, source, destination)
  | count + 1, source, destination =>
    match ListObject.lmove fromLeft toLeft source destination with
    | none => (0, source, destination)
    | some (_, source, destination) =>
      let (moved, source, destination) := transfer fromLeft toLeft count source destination
      (moved + 1, source, destination)

variable (fromLeft toLeft : Bool)

def turn (items : List Bytes) : List Bytes :=
  match ListObject.rotate fromLeft toLeft items with
  | none => items
  | some (_, rotated) => rotated

def decodeItems : Nat → Bytes → Except ListError (List Bytes)
  | 0, _ => .ok []
  | count + 1, rest =>
    if rest.length < 4 then .error .bufferTooShort
    else if PagedList.int32OfLe rest < 0 then .error .corruptedData
    else if (rest.drop 4).length < (PagedList.int32OfLe rest).toNat then .error .bufferTooShort
    else
      (decodeItems count ((rest.drop 4).drop (PagedList.int32OfLe rest).toNat)).map
        ((rest.drop 4).take (PagedList.int32OfLe rest).toNat :: ·)

def decode (buf : Bytes) : Except ListError (List Bytes) :=
  if buf.length < 4 then .error .bufferTooShort
  else if PagedList.int32OfLe buf < 0 then .error .corruptedData
  else if (buf.length - 4) / 4 < (PagedList.int32OfLe buf).toNat then .error .corruptedData
  else decodeItems (PagedList.int32OfLe buf).toNat (buf.drop 4)

def call : ListCall → List Bytes → ListReply × List Bytes
  | .lpush values, items => (.length (values.reverse ++ items).length, values.reverse ++ items)
  | .rpush values, items => (.length (items ++ values).length, items ++ values)
  | .lpushx values, items =>
    if items = [] then (.length 0, [])
    else (.length (values.reverse ++ items).length, values.reverse ++ items)
  | .rpushx values, items =>
    if items = [] then (.length 0, []) else (.length (items ++ values).length, items ++ values)
  | .popOne fromLeft, items =>
    match popOne fromLeft items with
    | none => (.item none, items)
    | some (item, rest) => (.item (some item), rest)
  | .pop true count, items => (.items (items.take count), items.drop count)
  | .pop false count, items =>
    (.items (items.reverse.take count), items.take (items.length - count))
  | .lset index value, items =>
    if 0 ≤ offset items.length index ∧ offset items.length index < items.length then
      (.done, items.set (offset items.length index).toNat value)
    else (.failed .indexOutOfRange, items)
  | .linsert pivot value position, items =>
    match linsert pivot value position items with
    | none => (.position (-1), items)
    | some inserted => (.position inserted.length, inserted)
  | .ltrim start stop, items => (.done, lrange start stop items)
  | .lrem count value, items =>
    (.length (items.length - (withoutMatches count value items).length),
      withoutMatches count value items)
  | .rotate fromLeft toLeft, items =>
    (.item ((rotate fromLeft toLeft items).map Prod.fst), turn fromLeft toLeft items)
  | .transferWithin count fromLeft toLeft, items =>
    (.length (min count items.length), (turn fromLeft toLeft)^[min count items.length] items)
  | .clear, _ => (.done, [])
  | .deserialize buf, items =>
    match decode buf with
    | .ok decoded => (.done, decoded)
    | .error error => (.failed error, items)
  | .len, items => (.length items.length, items)
  | .lindex index, items => (.item (lindex index items), items)
  | .lrange start stop, items => (.items (lrange start stop items), items)

def move : ListMove → List Bytes → List Bytes → ListReply × List Bytes × List Bytes
  | .lmove fromLeft toLeft, source, destination =>
    match lmove fromLeft toLeft source destination with
    | none => (.item none, source, destination)
    | some (item, source, destination) => (.item (some item), source, destination)
  | .transferTo count fromLeft toLeft, source, destination =>
    (.length (transfer fromLeft toLeft count source destination).1,
      (transfer fromLeft toLeft count source destination).2)

def implementation : Simulation.Implementation ListCall ListMove ListReply (List Bytes) :=
  ⟨call, move⟩

theorem normalizeIndex_eq (length : Nat) (index : Int) : normalizeIndex length index =
      if 0 ≤ offset length index ∧ offset length index < length then
        some (offset length index).toNat
      else none := by
  have same : (if 0 ≤ index then index else (length : Int) + index) = offset length index := by
    unfold offset
    split_ifs <;> omega
  rw [normalizeIndex, same]

theorem map_filter_zipIdx (items : List Bytes) (lower upper : Int) (start : Nat) :
    ((items.zipIdx start).filter fun entry => decide (lower ≤ entry.2 ∧
        (entry.2 : Int) ≤ upper)).map Prod.fst =
      (items.take (upper + 1 - start).toNat).drop (lower - start).toNat := by
  induction items generalizing start with
  | nil => rw [zipIdx_nil, filter_nil, map_nil, take_nil, drop_nil]
  | cons item items ih =>
    rw [zipIdx_cons]
    by_cases after : upper < start
    · have none : (upper + 1 - start).toNat = 0 := by omega
      have noneNext : (upper + 1 - (start + 1 : Nat)).toNat = 0 := by omega
      rw [filter_cons_of_neg (by simpa using fun _ => after), ih, none, noneNext,
        take_zero, take_zero, drop_nil, drop_nil]
    · have more : (upper + 1 - start).toNat = (upper + 1 - (start + 1 : Nat)).toNat + 1 := by
        omega
      rw [more, take_succ_cons]
      by_cases before : (start : Int) < lower
      · have skip : (lower - start).toNat = (lower - (start + 1 : Nat)).toNat + 1 := by omega
        rw [filter_cons_of_neg (by simpa using fun low => absurd before (not_lt.mpr low)),
          ih, skip, drop_succ_cons]
      · have first : (lower - start).toNat = 0 := by omega
        have next : (lower - (start + 1 : Nat)).toNat = 0 := by omega
        rw [filter_cons_of_pos (by simpa using ⟨not_lt.mp before, not_lt.mp after⟩),
          map_cons, ih, first, next, drop_zero, drop_zero]

theorem lrange_eq (start stop : Int) (items : List Bytes) :
    match normalizeRange items.length start stop with
    | none => lrange start stop items = []
    | some (first, last) => first ≤ last ∧ last < items.length ∧
        lrange start stop items = (items.drop first).take (last + 1 - first) := by
  rw [lrange, map_filter_zipIdx]
  have bounds : ∀ index, offset items.length index =
      if index < 0 then items.length + index else index := fun _ => rfl
  have lower := bounds start
  have upper := bounds stop
  unfold normalizeRange
  by_cases empty : items.length = 0
  · rw [if_pos empty, eq_nil_of_length_eq_zero empty]
    simp
  · rw [if_neg empty]
    dsimp only
    by_cases none :
        (if stop < 0 then (items.length : Int) + stop else min stop (items.length - 1)) <
          if start < 0 then max ((items.length : Int) + start) 0 else start
    · rw [if_pos none]
      refine drop_eq_nil_of_le ?_
      rw [length_take]
      split_ifs at none lower upper <;> omega
    · rw [if_neg none]
      refine ⟨?_, ?_, ?_⟩
      · split_ifs at none ⊢ <;> omega
      · split_ifs at none ⊢ <;> omega
      · have same : (if start < 0 then max ((items.length : Int) + start) 0 else start).toNat =
            (offset items.length start - (0 : Nat)).toNat := by
          split_ifs at lower ⊢ <;> omega
        rw [drop_take, same, take_eq_take_iff, length_drop]
        split_ifs at none upper ⊢ <;> omega

/-- Repeated moves take elements off an end of the source to one of the destination. -/
theorem transfer_eq (count : Nat) (source destination : List Bytes) :
    transfer fromLeft toLeft count source destination = (min count source.length,
        if fromLeft then source.drop count else source.take (source.length - count),
        ((if fromLeft then source else source.reverse).take count).foldl
          (fun items item => pushOne toLeft item items) destination) := by
  induction count generalizing source destination with
  | zero => cases fromLeft <;> simp [transfer]
  | succ count ih =>
    cases fromLeft with
    | true =>
      cases source with
      | nil => rfl
      | cons item source =>
        simp only [transfer, ListObject.lmove, popOne, if_true, Option.map_some, ih, length_cons,
          Nat.add_min_add_right, drop_succ_cons, take_succ_cons, foldl_cons]
    | false =>
      rcases eq_nil_or_concat' source with rfl | ⟨source, item, rfl⟩
      · simp [transfer, ListObject.lmove, popOne]
      · simp only [transfer, ListObject.lmove, popOne, Bool.false_eq_true, if_false, reverse_concat,
          Option.map_some, ih, reverse_reverse, length_append, length_singleton,
          Nat.add_min_add_right, take_succ_cons, foldl_cons, Nat.add_sub_add_right]
        rw [take_append_of_le_length (Nat.sub_le _ _)]

theorem turn_of_popOne {fromLeft toLeft : Bool} {items rest : List Bytes} {item : Bytes}
    (across : fromLeft ≠ toLeft) (popped : popOne fromLeft items = some (item, rest)) :
    turn fromLeft toLeft items = pushOne toLeft item rest := by
  rw [turn, rotate, if_neg across, popped]
  rfl

end Sequence

namespace PagedList

open Chunks ListObject

variable {items : List Bytes} {list : PagedList}

theorem Sequence.turn_same (toLeft : Bool) (items : List Bytes) :
    Sequence.turn toLeft toLeft items = items := by
  rw [Sequence.turn, ListObject.rotate, if_pos rfl]
  cases (if toLeft = true then items.head? else items.getLast?) <;> rfl

section

variable (holds : Represents list items)

include holds

theorem represents_foldl_pushFrontInner (values : List Bytes) :
    Represents (values.foldl (fun list val => list.pushFrontInner val) list)
      (values.reverse ++ items) := by
  induction values generalizing list items with
  | nil => exact holds
  | cons value values ih =>
    rw [foldl_cons, reverse_cons, append_assoc]
    exact ih (represents_pushFrontInner value holds)

theorem represents_foldl_pushBackInner (values : List Bytes) :
    Represents (values.foldl (fun list val => list.pushBackInner val) list) (items ++ values) := by
  induction values generalizing list items with
  | nil => rwa [append_nil]
  | cons value values ih =>
    rw [foldl_cons, ← singleton_append, ← append_assoc]
    exact ih (represents_pushBackInner value holds)

theorem represents_foldl_pushInner (toLeft : Bool) (values : List Bytes) :
    Represents (values.foldl (fun list val => list.pushInner toLeft val) list)
      (values.foldl (fun items item => pushOne toLeft item items) items) := by
  induction values generalizing list items with
  | nil => exact holds
  | cons value values ih => exact ih (represents_pushInner toLeft value holds)

theorem len_eq_zero_iff : list.len = 0 ↔ items = [] := by
  rw [holds.len, length_eq_zero_iff]

theorem locateNormalized_of_inside {index : Int}
    (inside : 0 ≤ Sequence.offset items.length index ∧
      Sequence.offset items.length index < items.length) :
    ∃ place, list.locateNormalized index = some place ∧
      Place list.pages place (Sequence.offset items.length index).toNat := by
  have position : (Sequence.offset items.length index).toNat < items.length := by omega
  obtain ⟨place, located, found⟩ := locate_place holds position
  refine ⟨place, ?_, found⟩
  rw [locateNormalized, holds.len, Sequence.normalizeIndex_eq, if_pos inside, Option.bind_some,
    located]

theorem locateNormalized_of_outside {index : Int}
    (outside : ¬(0 ≤ Sequence.offset items.length index ∧
      Sequence.offset items.length index < items.length)) : list.locateNormalized index = none := by
  rw [locateNormalized, holds.len, Sequence.normalizeIndex_eq, if_neg outside, Option.bind_none]

theorem lindex_eq (index : Int) : list.lindex index = Sequence.lindex index items := by
  rw [Sequence.lindex]
  by_cases inside : 0 ≤ Sequence.offset items.length index ∧
      Sequence.offset items.length index < items.length
  · obtain ⟨place, located, found⟩ := locateNormalized_of_inside holds inside
    obtain ⟨page, atNumber, atOffset⟩ := found.read
    rw [holds.content] at atOffset
    rw [if_pos inside.1, ← atOffset]
    simp only [lindex, located, atNumber, Option.bind_eq_bind, Option.bind_some]
  · simp only [lindex, locateNormalized_of_outside holds inside, Option.bind_eq_bind,
      Option.bind_none]
    split_ifs with nonneg
    · rw [getElem?_eq_none (by omega)]
    · rfl

theorem lrange_eq (start stop : Int) :
    list.lrange start stop = Sequence.lrange start stop items := by
  have range := Sequence.lrange_eq start stop items
  rw [lrange, holds.len]
  cases bounds : normalizeRange items.length start stop with
  | none =>
    rw [bounds] at range
    exact range.symm
  | some pair =>
    rw [bounds] at range
    obtain ⟨ordered, inside, same⟩ := range
    rw [same]
    exact collect_eq (shows_slices holds _ inside)

theorem represents_ltrim (start stop : Int) :
    Represents (list.ltrim start stop) (Sequence.lrange start stop items) := by
  have range := Sequence.lrange_eq start stop items
  rw [ltrim]
  split_ifs with empty
  · have none := (len_eq_zero_iff holds).mp empty
    subst none
    exact holds
  · cases bounds : normalizeRange items.length start stop with
    | none =>
      rw [bounds] at range
      rw [holds.len, bounds, range]
      exact represents_new
    | some pair =>
      rw [bounds] at range
      obtain ⟨ordered, inside, same⟩ := range
      rw [same]
      have trimmed := represents_trim holds ordered inside
      rw [holds.len] at trimmed ⊢
      rw [bounds]
      exact trimmed

theorem popInner_cases (fromLeft : Bool) :
    (ListObject.popOne fromLeft items = none ∧ list.popInner fromLeft = none) ∨
      ∃ item others rest, ListObject.popOne fromLeft items = some (item, others) ∧
        list.popInner fromLeft = some (item, rest) ∧ Represents rest others := by
  cases popped : ListObject.popOne fromLeft items with
  | none =>
    have none : items = [] := by
      cases fromLeft with
      | true =>
        cases items with
        | nil => rfl
        | cons item rest => cases popped
      | false =>
        rcases eq_nil_or_concat' items with rfl | ⟨rest, item, rfl⟩
        · rfl
        · simp [ListObject.popOne] at popped
    subst none
    exact .inl ⟨rfl, popInner_nil fromLeft holds⟩
  | some result =>
    obtain ⟨item, others⟩ := result
    obtain ⟨rest, taken, remains⟩ := popInner_of_popOne holds popped
    exact .inr ⟨item, others, rest, rfl, taken, remains⟩

theorem pop_eq (fromLeft : Bool) (count : Nat) :
    (list.pop fromLeft count).1 = (if fromLeft then items else items.reverse).take count ∧
      Represents (list.pop fromLeft count).2
        (if fromLeft then items.drop count else items.take (items.length - count)) := by
  have collected (values popped : List Bytes) :
      values.foldl (fun popped val => popped ++ [val]) popped = popped ++ values := by
    induction values generalizing popped with
    | nil => rw [foldl_nil, append_nil]
    | cons value values ih => rw [foldl_cons, ih, append_assoc, singleton_append]
  by_cases nothing : count = 0 ∨ list.len = 0
  · rw [pop, if_pos nothing]
    rcases nothing with rfl | empty
    · cases fromLeft
      · exact ⟨rfl, by rwa [if_neg Bool.false_ne_true, Nat.sub_zero, take_length]⟩
      · exact ⟨rfl, holds⟩
    · have none := (len_eq_zero_iff holds).mp empty
      subst none
      rw [reverse_nil, ite_self, take_nil, drop_nil, take_nil, ite_self]
      exact ⟨rfl, holds⟩
  · obtain ⟨rest, drained, remains⟩ := drainInto_eq fromLeft
      (fun popped val => popped ++ [val]) count [] holds
    rw [pop, if_neg nothing, drained, collected]
    exact ⟨rfl, remains⟩

theorem peek_eq (atLeft : Bool) :
    list.peek atLeft = if atLeft then items.head? else items.getLast? := by
  have sized := holds.sized
  have content := holds.content
  cases atLeft with
  | true =>
    rw [peek, if_pos rfl, if_pos rfl]
    cases pages : list.pages with
    | nil =>
      rw [pages] at content
      rw [← content]
      rfl
    | cons page rest =>
      rw [pages, sized_cons] at sized
      rw [pages, flatten_cons] at content
      rw [← content, head?_append_of_ne_nil _ sized.1.1]
      rfl
  | false =>
    rw [peek, if_neg Bool.false_ne_true, if_neg Bool.false_ne_true]
    rcases eq_nil_or_concat' list.pages with pages | ⟨front, page, pages⟩
    · rw [pages] at content ⊢
      rw [← content]
      rfl
    · rw [pages, sized_append, sized_cons] at sized
      rw [pages, flatten_concat] at content
      rw [pages, getLast?_concat, Option.bind_some, ← content,
        getLast?_append_of_ne_nil _ sized.2.1.1]

theorem peek_pushInner (toLeft : Bool) (val : Bytes) :
    (list.pushInner toLeft val).peek toLeft = some val := by
  rw [peek_eq (represents_pushInner toLeft val holds) toLeft]
  cases toLeft with
  | true => rfl
  | false => exact getLast?_concat

theorem represents_turn {fromLeft toLeft : Bool} (across : fromLeft ≠ toLeft) :
    Represents (list.turn fromLeft toLeft) (Sequence.turn fromLeft toLeft items) := by
  rcases popInner_cases holds fromLeft with
    ⟨none, taken⟩ | ⟨item, others, rest, popped, taken, remains⟩
  · rw [turn, taken, Sequence.turn, ListObject.rotate, if_neg across, none]
    exact holds
  · rw [turn, taken, Sequence.turn_of_popOne across popped]
    exact represents_pushInner toLeft item remains

theorem rotate_eq (fromLeft toLeft : Bool) :
    (list.rotate fromLeft toLeft).1 = (ListObject.rotate fromLeft toLeft items).map Prod.fst ∧
      Represents (list.rotate fromLeft toLeft).2 (Sequence.turn fromLeft toLeft items) := by
  rw [rotate]
  split_ifs with empty same
  · have none := (len_eq_zero_iff holds).mp empty
    subst none
    cases fromLeft <;> cases toLeft <;> exact ⟨rfl, holds⟩
  · subst same
    rw [Sequence.turn_same, ListObject.rotate, if_pos rfl, Option.map_map]
    refine ⟨?_, holds⟩
    rw [peek_eq holds fromLeft]
    exact Option.map_id'.symm
  · have turned := represents_turn holds same
    rw [turn] at turned
    rcases popInner_cases holds fromLeft with
      ⟨none, taken⟩ | ⟨item, others, rest, popped, taken, remains⟩
    · rw [taken] at turned ⊢
      rw [ListObject.rotate, if_neg same, none]
      exact ⟨rfl, turned⟩
    · rw [taken] at turned ⊢
      rw [ListObject.rotate, if_neg same, popped]
      exact ⟨peek_pushInner remains toLeft item, turned⟩

theorem transferWithin_eq (count : Nat) (fromLeft toLeft : Bool) :
    (list.transferWithin count fromLeft toLeft).1 = min count items.length ∧
      Represents (list.transferWithin count fromLeft toLeft).2
        ((Sequence.turn fromLeft toLeft)^[min count items.length] items) := by
  rw [transferWithin, holds.len]
  split_ifs with none same
  · rw [none]
    exact ⟨rfl, holds⟩
  · subst same
    rw [Function.iterate_fixed (Sequence.turn_same fromLeft items)]
    exact ⟨rfl, holds⟩
  · refine ⟨rfl, ?_⟩
    clear none
    generalize min count items.length = turns
    induction turns generalizing list items with
    | zero => exact holds
    | succ turns ih => exact ih (represents_turn holds same)

theorem lset_eq (index : Int) (value : Bytes) :
    if 0 ≤ Sequence.offset items.length index ∧
        Sequence.offset items.length index < items.length then
      ∃ final, list.lset index value = .ok final ∧
        Represents final (items.set (Sequence.offset items.length index).toNat value)
    else list.lset index value = .error .indexOutOfRange := by
  split_ifs with inside
  · obtain ⟨place, located, found⟩ := locateNormalized_of_inside holds inside
    obtain ⟨page, atNumber, atOffset, changed⟩ := represents_set value holds found
    refine ⟨_, ?_, changed⟩
    simp only [lset, located, atNumber, if_pos atOffset]
  · rw [lset, locateNormalized_of_outside holds inside]

end

theorem readItems_eq (count : Nat) (rest : Bytes) (list : PagedList) :
    readItems count rest list = (Sequence.decodeItems count rest).map
      (·.foldl (fun list val => list.pushBackInner val) list) := by
  induction count generalizing rest list with
  | zero => rfl
  | succ count ih =>
    rw [Sequence.decodeItems, readItems]
    by_cases header : rest.length < 4
    · rw [if_pos header, if_pos header]
      rfl
    rw [if_neg header, if_neg header]
    by_cases negative : int32OfLe rest < 0
    · rw [if_pos negative, if_pos negative]
      rfl
    rw [if_neg negative, if_neg negative]
    by_cases payload : (rest.drop 4).length < (int32OfLe rest).toNat
    · rw [if_pos payload, if_pos payload]
      rfl
    rw [if_neg payload, if_neg payload, ih]
    cases Sequence.decodeItems count ((rest.drop 4).drop (int32OfLe rest).toNat) <;> rfl

theorem deserialize_eq (buf : Bytes) : deserialize buf = (Sequence.decode buf).map
      (·.foldl (fun list val => list.pushBackInner val) new) := by
  rw [Sequence.decode, deserialize]
  by_cases header : buf.length < 4
  · rw [if_pos header, if_pos header]
    rfl
  rw [if_neg header, if_neg header]
  by_cases negative : int32OfLe buf < 0
  · rw [if_pos negative, if_pos negative]
    rfl
  rw [if_neg negative, if_neg negative]
  by_cases count : (buf.length - 4) / 4 < (int32OfLe buf).toNat
  · rw [if_pos count, if_pos count]
    rfl
  rw [if_neg count, if_neg count, readItems_eq]

theorem represents_call (call : ListCall) (list : PagedList) (items : List Bytes)
    (holds : Represents list items) :
    (list.call call).1 = (Sequence.call call items).1 ∧
      Represents (list.call call).2 (Sequence.call call items).2 := by
  cases call with
  | lpush values =>
    have pushed := represents_foldl_pushFrontInner holds values
    exact ⟨congrArg ListReply.length pushed.len, pushed⟩
  | rpush values =>
    have pushed := represents_foldl_pushBackInner holds values
    exact ⟨congrArg ListReply.length pushed.len, pushed⟩
  | lpushx values =>
    simp only [PagedList.call, Sequence.call, lpushx, len_eq_zero_iff holds]
    split_ifs with empty
    · exact ⟨rfl, empty ▸ holds⟩
    · have pushed := represents_foldl_pushFrontInner holds values
      exact ⟨congrArg ListReply.length pushed.len, pushed⟩
  | rpushx values =>
    simp only [PagedList.call, Sequence.call, rpushx, len_eq_zero_iff holds]
    split_ifs with empty
    · exact ⟨rfl, empty ▸ holds⟩
    · have pushed := represents_foldl_pushBackInner holds values
      exact ⟨congrArg ListReply.length pushed.len, pushed⟩
  | popOne fromLeft =>
    simp only [PagedList.call, Sequence.call, popOne]
    rcases popInner_cases holds fromLeft with
      ⟨none, taken⟩ | ⟨item, others, rest, popped, taken, remains⟩
    · rw [none, taken]
      exact ⟨rfl, holds⟩
    · rw [popped, taken]
      exact ⟨rfl, remains⟩
  | pop fromLeft count =>
    obtain ⟨popped, remains⟩ := pop_eq holds fromLeft count
    cases fromLeft <;> exact ⟨congrArg ListReply.items popped, remains⟩
  | lset index value =>
    have changed := lset_eq holds index value
    simp only [PagedList.call, Sequence.call]
    split_ifs at changed ⊢
    · obtain ⟨final, set, remains⟩ := changed
      rw [set]
      exact ⟨rfl, remains⟩
    · rw [changed]
      exact ⟨rfl, holds⟩
  | linsert pivot value position =>
    have changed := represents_linsert pivot value position holds
    simp only [PagedList.call, Sequence.call]
    cases found : ListObject.linsert pivot value position items with
    | none =>
      rw [found] at changed
      rw [changed]
      exact ⟨rfl, holds⟩
    | some inserted =>
      rw [found] at changed
      exact ⟨congrArg ListReply.position changed.1, changed.2⟩
  | ltrim start stop => exact ⟨rfl, represents_ltrim holds start stop⟩
  | lrem count value =>
    obtain ⟨removed, remains⟩ := represents_lrem count value holds
    exact ⟨congrArg ListReply.length removed, remains⟩
  | rotate fromLeft toLeft =>
    obtain ⟨item, turned⟩ := rotate_eq holds fromLeft toLeft
    exact ⟨congrArg ListReply.item item, turned⟩
  | transferWithin count fromLeft toLeft =>
    obtain ⟨taken, turned⟩ := transferWithin_eq holds count fromLeft toLeft
    exact ⟨congrArg ListReply.length taken, turned⟩
  | clear => exact ⟨rfl, represents_new⟩
  | deserialize buf =>
    simp only [PagedList.call, Sequence.call, deserialize_eq]
    cases Sequence.decode buf with
    | ok decoded => exact ⟨rfl, represents_foldl_pushBackInner represents_new decoded⟩
    | error error => exact ⟨rfl, holds⟩
  | len => exact ⟨congrArg ListReply.length holds.len, holds⟩
  | lindex index => exact ⟨congrArg ListReply.item (lindex_eq holds index), holds⟩
  | lrange start stop => exact ⟨congrArg ListReply.items (lrange_eq holds start stop), holds⟩

theorem represents_move (move : ListMove) (source : PagedList) (items : List Bytes)
    (destination : PagedList) (others : List Bytes) (holdsSource : Represents source items)
    (holdsDestination : Represents destination others) :
    (PagedList.move move source destination).1 = (Sequence.move move items others).1 ∧
      Represents (PagedList.move move source destination).2.1
        (Sequence.move move items others).2.1 ∧
      Represents (PagedList.move move source destination).2.2
        (Sequence.move move items others).2.2 := by
  cases move with
  | lmove fromLeft toLeft =>
    simp only [PagedList.move, Sequence.move, lmove, ListObject.lmove]
    rcases popInner_cases holdsSource fromLeft with
      ⟨none, taken⟩ | ⟨item, left, rest, popped, taken, remains⟩
    · rw [none, taken]
      exact ⟨rfl, holdsSource, holdsDestination⟩
    · rw [popped, taken]
      exact ⟨rfl, remains, represents_pushInner toLeft item holdsDestination⟩
  | transferTo count fromLeft toLeft =>
    simp only [PagedList.move, Sequence.move, Sequence.transfer_eq]
    obtain ⟨rest, drained, remains⟩ := drainInto_eq fromLeft
      (fun list val => pushInner toLeft val list) count destination holdsSource
    have received := represents_foldl_pushInner holdsDestination toLeft
      ((if fromLeft then items else items.reverse).take count)
    have taken : min count items.length = min count source.len := by rw [holdsSource.len]
    rw [transferTo, taken]
    by_cases none : min count source.len = 0
    · rw [drainInto_of_none none, Prod.mk.injEq] at drained
      rw [← drained.1] at received
      rw [if_pos none, none]
      exact ⟨rfl, drained.2 ▸ remains, received⟩
    · rw [if_neg none, drainInto_min, drained]
      exact ⟨rfl, remains, received⟩

def lmoves (fromLeft toLeft : Bool) :
    Nat → PagedList → PagedList → Nat × PagedList × PagedList
  | 0, source, destination => (0, source, destination)
  | count + 1, source, destination =>
    match lmove fromLeft toLeft source destination with
    | (none, source, destination) => (0, source, destination)
    | (some _, source, destination) =>
      let (moved, source, destination) := lmoves fromLeft toLeft count source destination
      (moved + 1, source, destination)

theorem represents_lmoves (fromLeft toLeft : Bool) (count : Nat) (source : PagedList)
    (items : List Bytes) (destination : PagedList) (others : List Bytes)
    (holdsSource : Represents source items) (holdsDestination : Represents destination others) :
    (lmoves fromLeft toLeft count source destination).1 =
        (Sequence.transfer fromLeft toLeft count items others).1 ∧
      Represents (lmoves fromLeft toLeft count source destination).2.1
        (Sequence.transfer fromLeft toLeft count items others).2.1 ∧
      Represents (lmoves fromLeft toLeft count source destination).2.2
        (Sequence.transfer fromLeft toLeft count items others).2.2 := by
  induction count generalizing source items destination others with
  | zero => exact ⟨rfl, holdsSource, holdsDestination⟩
  | succ count ih =>
    rw [lmoves, Sequence.transfer, lmove, ListObject.lmove]
    rcases popInner_cases holdsSource fromLeft with
      ⟨none, taken⟩ | ⟨item, left, rest, popped, taken, remains⟩
    · rw [none, taken]
      exact ⟨rfl, holdsSource, holdsDestination⟩
    · rw [popped, taken]
      obtain ⟨moved, remain⟩ := ih rest left _ _ remains
        (represents_pushInner toLeft item holdsDestination)
      exact ⟨congrArg (· + 1) moved, remain⟩

/-- The bulk transfer counts what single moves count and leaves both lists as they do. -/
theorem transferTo_eq_lmoves {source destination : PagedList} {others : List Bytes}
    (holdsSource : Represents source items) (holdsDestination : Represents destination others)
    (count : Nat) (fromLeft toLeft : Bool) :
    let bulk := transferTo count fromLeft toLeft source destination
    let single := lmoves fromLeft toLeft count source destination
    bulk.1 = single.1 ∧ ∃ left received,
      Represents bulk.2.1 left ∧ Represents single.2.1 left ∧
        Represents bulk.2.2 received ∧ Represents single.2.2 received := by
  obtain ⟨moved, left, received⟩ := represents_move (.transferTo count fromLeft toLeft)
    source items destination others holdsSource holdsDestination
  obtain ⟨counted, leftOne, receivedOne⟩ := represents_lmoves fromLeft toLeft count
    source items destination others holdsSource holdsDestination
  exact ⟨(ListReply.length.inj moved).trans counted.symm, _, _, left, leftOne, received,
    receivedOne⟩

theorem transferTo_eq_lmoves_new :
    (transferTo 2 true false ⟨[[[1], [2]], [[1]]], 3⟩ new).1 =
      (lmoves true false 2 ⟨[[[1], [2]], [[1]]], 3⟩ new).1 :=
  (transferTo_eq_lmoves represents_twoPages represents_new 2 true false).1

theorem simulates : Simulation.Simulates Represents implementation Sequence.implementation :=
  ⟨represents_call, represents_move⟩

/-- After any history, pages have the right size, cached lengths are right, the pages hold the
sequences of the textbook operations, and every answer is theirs. -/
theorem run_refines {ι : Type} [DecidableEq ι]
    (requests : List (Simulation.Request ι ListCall ListMove)) :
    let paged := implementation.run requests fun _ => new
    let flat := Sequence.implementation.run requests fun _ => []
    paged.1 = flat.1 ∧ ∀ name,
      (∀ page ∈ (paged.2 name).pages, page ≠ [] ∧ page.length ≤ defaultPageCapacity) ∧
        (paged.2 name).len = ((paged.2 name).pages.map List.length).sum ∧
        (paged.2 name).pages.flatten = flat.2 name := by
  obtain ⟨replies, lists⟩ := simulates.run requests fun _ => represents_new
  exact ⟨replies, fun name => ⟨(lists name).sized, (lists name).length, (lists name).content⟩⟩

end PagedList

end Wedb.Object
