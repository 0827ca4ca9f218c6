/-
The list object as it is stored: a directory of pages of at most sixty-four elements, with a cached
length. A push opens a page when the one at its end is full; a removal drops an empty page; an
insertion splits a full one; the removal of matches merges sparse neighbours.
-/

import Wedb.ListObject

namespace Wedb.Object

def defaultPageCapacity : Nat := 64

/-- `LinkedPage`: the elements of a page. -/
abbrev Page := List Bytes

namespace Page

def isFull (page : Page) : Bool := decide (defaultPageCapacity ≤ page.length)

def remainingCapacity (page : Page) : Nat := defaultPageCapacity - page.length

def pushFront (val : Bytes) (page : Page) : Page := if isFull page then page else val :: page

def pushBack (val : Bytes) (page : Page) : Page := if isFull page then page else page ++ [val]

def split (page : Page) : Page × Page :=
  (page.take (page.length / 2), page.drop (page.length / 2))

def tryMerge (page other : Page) : Option Page :=
  if page.length + other.length ≤ defaultPageCapacity then some (page ++ other) else none

end Page

/-- `ListObject`: the page directory and the cached number of elements. -/
structure PagedList where
  pages : List Page
  len : Nat
  deriving DecidableEq

inductive ListError
  | indexOutOfRange
  | bufferTooShort
  | corruptedData
  deriving DecidableEq

namespace PagedList

def new : PagedList := ⟨[], 0⟩

def clear (_ : PagedList) : PagedList := new

variable (list : PagedList)

def clearPhysical : PagedList :=
  if list.len = 0 then { list with pages := [] } else list

def locateFront (idx : Nat) : Nat → Nat → List Page → Option (Nat × Nat)
  | _, _, [] => none
  | pi, acc, page :: rest =>
    if idx < acc + page.length then some (pi, idx - acc)
    else locateFront idx (pi + 1) (acc + page.length) rest

def locateBack (idx : Nat) : Nat → List Page → Option (Nat × Nat)
  | _, [] => none
  | acc, page :: rest =>
    if acc - page.length ≤ idx then some (rest.length, idx - (acc - page.length))
    else locateBack idx (acc - page.length) rest

def locate (idx : Nat) : Option (Nat × Nat) :=
  if list.len ≤ idx then none
  else if idx * 2 ≤ list.len then locateFront idx 0 0 list.pages
  else locateBack idx list.len list.pages.reverse

def locateNormalized (index : Int) : Option (Nat × Nat) :=
  (ListObject.normalizeIndex list.len index).bind list.locate

variable (val : Bytes)

def pushFrontInner (list : PagedList) : PagedList :=
  match list.pages with
  | page :: rest =>
    if 0 < Page.remainingCapacity page then ⟨Page.pushFront val page :: rest, list.len + 1⟩
    else ⟨Page.pushFront val [] :: page :: rest, list.len + 1⟩
  | [] => ⟨[Page.pushFront val []], list.len + 1⟩

def pushBackInner (list : PagedList) : PagedList :=
  match list.pages.getLast? with
  | some page =>
    if 0 < Page.remainingCapacity page then
      ⟨list.pages.dropLast ++ [Page.pushBack val page], list.len + 1⟩
    else ⟨list.pages ++ [Page.pushBack val []], list.len + 1⟩
  | none => ⟨list.pages ++ [Page.pushBack val []], list.len + 1⟩

def popFrontInner : Option (Bytes × PagedList) :=
  match list.pages with
  | (val :: page) :: rest =>
    some (val, clearPhysical ⟨if page.isEmpty then rest else page :: rest, list.len - 1⟩)
  | _ => none

def popBackInner : Option (Bytes × PagedList) := do
  let page ← list.pages.getLast?
  let val ← page.getLast?
  let pages :=
    if page.dropLast.isEmpty then list.pages.dropLast
    else list.pages.dropLast ++ [page.dropLast]
  some (val, clearPhysical ⟨pages, list.len - 1⟩)

variable (fromLeft : Bool)

def popInner (list : PagedList) : Option (Bytes × PagedList) :=
  if fromLeft then list.popFrontInner else list.popBackInner

def pushInner (toLeft : Bool) (val : Bytes) (list : PagedList) : PagedList :=
  if toLeft then list.pushFrontInner val else list.pushBackInner val

def removeAt (idx : Nat) : Option (Bytes × PagedList) := do
  let (pi, offset) ← list.locate idx
  let page ← list.pages[pi]?
  let val ← page[offset]?
  let pages :=
    if (page.eraseIdx offset).isEmpty then list.pages.eraseIdx pi
    else list.pages.set pi (page.eraseIdx offset)
  some (val, clearPhysical ⟨pages, list.len - 1⟩)

def insertIntoPage (pi offset : Nat) (val : Bytes) (list : PagedList) : PagedList :=
  match list.pages[pi]? with
  | none => list
  | some page =>
    if Page.isFull page = false then
      ⟨list.pages.set pi (page.insertIdx offset val), list.len + 1⟩
    else
      let half := page.length / 2
      let (left, right) := Page.split page
      let (left, right) :=
        if offset < half then (left.insertIdx offset val, right)
        else (left, right.insertIdx (offset - half) val)
      ⟨(list.pages.set pi left).insertIdx (pi + 1) right, list.len + 1⟩

def reclaimPage (merged : List Page) (page : Page) : List Page :=
  if page.isEmpty then merged
  else
    match merged.getLast? with
    | some head =>
      if head.length + page.length ≤ defaultPageCapacity / 2 then
        match Page.tryMerge head page with
        | some joined => merged.dropLast ++ [joined]
        | none => merged ++ [page]
      else merged ++ [page]
    | none => merged ++ [page]

def reclaim : PagedList :=
  clearPhysical { list with pages := list.pages.foldl reclaimPage [] }

structure Slices where
  pages : List Page
  front : Nat × Nat
  back : Nat × Nat
  remaining : Nat

def slices (start stop : Nat) : Slices :=
  if stop ≤ start then ⟨list.pages, (0, 0), (0, 0), 0⟩
  else
    ⟨list.pages, (list.locate start).getD (0, 0), (list.locate (stop - 1)).getD (0, 0),
      stop - start⟩

def Slices.advanceFront (slices : Slices) : Slices :=
  match slices.pages[slices.front.1]? with
  | none => slices
  | some page =>
    if page.length ≤ slices.front.2 + 1 then { slices with front := (slices.front.1 + 1, 0) }
    else { slices with front := (slices.front.1, slices.front.2 + 1) }

def Slices.next (slices : Slices) : Option (Bytes × Slices) :=
  if slices.remaining = 0 then none
  else do
    let page ← slices.pages[slices.front.1]?
    let item ← page[slices.front.2]?
    let rest := { slices with remaining := slices.remaining - 1 }
    some (item, if 0 < rest.remaining then rest.advanceFront else rest)

def Slices.advanceBack (slices : Slices) : Slices :=
  if slices.back.2 = 0 then
    -- `wrapping_sub`
    let pi := if slices.back.1 = 0 then 2 ^ 64 - 1 else slices.back.1 - 1
    { slices with back := (pi, (slices.pages[pi]?.map fun page => page.length - 1).getD 0) }
  else { slices with back := (slices.back.1, slices.back.2 - 1) }

def Slices.nextBack (slices : Slices) : Option (Bytes × Slices) :=
  if slices.remaining = 0 then none
  else do
    let page ← slices.pages[slices.back.1]?
    let item ← page[slices.back.2]?
    let rest := { slices with remaining := slices.remaining - 1 }
    some (item, if 0 < rest.remaining then rest.advanceBack else rest)

def Slices.collect : Nat → Slices → List Bytes
  | 0, _ => []
  | fuel + 1, slices =>
    match slices.next with
    | none => []
    | some (item, slices) => item :: collect fuel slices

/-- The items of an iterator that is turned round by `rev`. -/
def Slices.collectBack : Nat → Slices → List Bytes
  | 0, _ => []
  | fuel + 1, slices =>
    match slices.nextBack with
    | none => []
    | some (item, slices) => item :: collectBack fuel slices

structure Drain where
  list : PagedList
  start : Nat
  remaining : Nat

def drainLeft (count : Nat) : Drain := ⟨list, 0, min count list.len⟩

def drainRight (count : Nat) : Drain :=
  ⟨list, list.len - min count list.len, min count list.len⟩

def Drain.next (drain : Drain) : Option (Bytes × Drain) :=
  if drain.remaining = 0 then none
  else
    (if drain.start = 0 then drain.list.popFrontInner else drain.list.removeAt drain.start).map
      fun popped => (popped.1, ⟨popped.2, drain.start, drain.remaining - 1⟩)

def Drain.nextBack (drain : Drain) : Option (Bytes × Drain) :=
  if drain.remaining = 0 then none
  else
    let idx := drain.start + drain.remaining - 1
    (if idx + 1 = drain.list.len then drain.list.popBackInner else drain.list.removeAt idx).map
      fun popped => (popped.1, ⟨popped.2, drain.start, drain.remaining - 1⟩)

def Drain.forEach {σ : Type} (next : Drain → Option (Bytes × Drain)) (visit : σ → Bytes → σ) :
    Nat → Drain → σ → σ × PagedList
  | 0, drain, state => (state, drain.list)
  | fuel + 1, drain, state =>
    match next drain with
    | none => (state, drain.list)
    | some (item, drain) => forEach next visit fuel drain (visit state item)

/-- The loop from the end where elements are popped. -/
def drainInto {σ : Type} (fromLeft : Bool) (visit : σ → Bytes → σ) (count : Nat) (state : σ)
    (list : PagedList) : σ × PagedList :=
  if fromLeft then
    Drain.forEach Drain.next visit (list.drainLeft count).remaining (list.drainLeft count) state
  else
    Drain.forEach Drain.nextBack visit (list.drainRight count).remaining (list.drainRight count)
      state

variable (values : List Bytes)

/-- `ListObject::lpush` and the length it returns. -/
def lpush (list : PagedList) : Nat × PagedList :=
  let list := values.foldl (fun list val => list.pushFrontInner val) list
  (list.len, list)

def rpush (list : PagedList) : Nat × PagedList :=
  let list := values.foldl (fun list val => list.pushBackInner val) list
  (list.len, list)

def lpushx (list : PagedList) : Nat × PagedList :=
  if list.len = 0 then (0, list) else list.lpush values

def rpushx (list : PagedList) : Nat × PagedList :=
  if list.len = 0 then (0, list) else list.rpush values

/-- `ListObject::lpop_one` or `rpop_one`. -/
def popOne (list : PagedList) : Option Bytes × PagedList :=
  match list.popInner fromLeft with
  | none => (none, list)
  | some (val, list) => (some val, list)

/-- `ListObject::lpop` or `rpop`. -/
def pop (count : Nat) (list : PagedList) : List Bytes × PagedList :=
  if count = 0 ∨ list.len = 0 then ([], list)
  else list.drainInto fromLeft (fun popped val => popped ++ [val]) count []

def lindex (index : Int) (list : PagedList) : Option Bytes := do
  let (pi, offset) ← list.locateNormalized index
  let page ← list.pages[pi]?
  page[offset]?

def lrange (start stop : Int) (list : PagedList) : List Bytes :=
  match ListObject.normalizeRange list.len start stop with
  | some (first, last) =>
    let slices := list.slices first (last + 1)
    slices.collect slices.remaining
  | none => []

def lposLoop (element : Bytes) (targetCount : Nat) :
    List (Bytes × Nat) → Nat → List Nat → List Nat
  | [], _, found => found
  | (item, idx) :: rest, skipMatches, found =>
    if item = element then
      if 0 < skipMatches then lposLoop element targetCount rest (skipMatches - 1) found
      else if targetCount ≤ (found ++ [idx]).length then found ++ [idx]
      else lposLoop element targetCount rest skipMatches (found ++ [idx])
    else lposLoop element targetCount rest skipMatches found

def lpos (element : Bytes) (rank : Int) (count : Option Nat) (maxlen : Nat)
    (list : PagedList) : List Nat :=
  if rank = 0 ∨ list.len = 0 then []
  else
    let maxComparisons := if maxlen = 0 then list.len else min maxlen list.len
    let targetCount := if count = some 0 then 2 ^ 64 - 1 else count.getD 1
    let iter := list.slices 0 list.len
    let entries :=
      if 0 < rank then (iter.collect iter.remaining).zipIdx
      else (iter.collectBack iter.remaining).zipIdx.map fun entry =>
        (entry.1, list.len - 1 - entry.2)
    lposLoop element targetCount (entries.take maxComparisons) (rank.natAbs - 1) []

def lset (index : Int) (val : Bytes) (list : PagedList) : Except ListError PagedList :=
  match list.locateNormalized index with
  | none => .error .indexOutOfRange
  | some (pi, offset) =>
    match list.pages[pi]? with
    | none => .error .indexOutOfRange
    | some page =>
      if offset < page.length then
        .ok { list with pages := list.pages.set pi (page.set offset val) }
      else .error .indexOutOfRange

def trimHead : Nat → Nat → List Page → Nat × List Page
  | _, removed, [] => (removed, [])
  | head, removed, page :: rest =>
    if head = 0 then (removed, page :: rest)
    else if head < page.length then (removed + head, page.drop head :: rest)
    else trimHead (head - page.length) (removed + page.length) rest

/-- The second loop of `ltrim`, over the pages in reverse. -/
def trimTail : Nat → List Page → List Page
  | _, [] => []
  | tail, page :: rest =>
    if tail = 0 then page :: rest
    else if tail < page.length then page.take (page.length - tail) :: rest
    else trimTail (tail - page.length) rest

def ltrim (start stop : Int) (list : PagedList) : PagedList :=
  if list.len = 0 then list
  else
    match ListObject.normalizeRange list.len start stop with
    | some (first, last) =>
      let keepLen := last + 1 - first
      let (headRemoved, pages) := trimHead first 0 list.pages
      ⟨(trimTail (list.len - headRemoved - keepLen) pages.reverse).reverse, keepLen⟩
    | none => new

def removeFromPageHead (quota : Nat) (val : Bytes) (page : Page) : Nat × Page :=
  page.foldl (fun (removed, kept) item =>
    if removed < quota ∧ item = val then (removed + 1, kept) else (removed, kept ++ [item]))
    (0, [])

def markTail (val : Bytes) : Nat → BitVec 64 → Nat → List (Bytes × Nat) → BitVec 64 × Nat
  | _, mask, removed, [] => (mask, removed)
  | quota, mask, removed, (item, offset) :: rest =>
    if quota = 0 then (mask, removed)
    else if item = val then markTail val (quota - 1) (mask ||| 1#64 <<< offset) (removed + 1) rest
    else markTail val quota mask removed rest

def retainUnmarked : BitVec 64 → Page → Page
  | _, [] => []
  | mask, item :: rest =>
    if mask &&& 1#64 = 0#64 then item :: retainUnmarked (mask >>> 1) rest
    else retainUnmarked (mask >>> 1) rest

def removeFromPageTail (quota : Nat) (val : Bytes) (page : Page) : Nat × Page :=
  let (mask, removed) := markTail val quota 0#64 0 page.zipIdx.reverse
  (removed, if 0 < removed then retainUnmarked mask page else page)

def retainNotEq (pages : List Page) : Nat × List Page :=
  pages.foldl (fun (removed, kept) page =>
    (removed + (page.length - (page.filter (· ≠ val)).length), kept ++ [page.filter (· ≠ val)]))
    (0, [])

def removeByPage (fromPage : Nat → Page → Nat × Page) :
    Nat → Nat → List Page → Nat × List Page
  | _, removed, [] => (removed, [])
  | quota, removed, page :: rest =>
    if quota = 0 then (removed, page :: rest)
    else
      let (r, kept) := fromPage quota page
      let (removed, rest) := removeByPage fromPage (quota - r) (removed + r) rest
      (removed, kept :: rest)

/-- The removal of `lrem`, by the sign of the count. -/
def removeMatches (count : Int) (val : Bytes) (list : PagedList) : Nat × List Page :=
  if count = 0 then retainNotEq val list.pages
  else if 0 < count then removeByPage (removeFromPageHead · val ·) count.toNat 0 list.pages
  else if list.len ≤ count.natAbs then retainNotEq val list.pages
  else
    let (removed, pages) :=
      removeByPage (removeFromPageTail · val ·) count.natAbs 0 list.pages.reverse
    (removed, pages.reverse)

def lrem (count : Int) (val : Bytes) (list : PagedList) : Nat × PagedList :=
  if list.len = 0 then (0, list)
  else
    let (removed, pages) := list.removeMatches count val
    (removed, reclaim ⟨pages, list.len - removed⟩)

def findPivot (pivot : Bytes) : Nat → List Page → Option (Nat × Nat)
  | _, [] => none
  | pi, page :: rest =>
    match page.findIdx? (· = pivot) with
    | some offset => some (pi, offset)
    | none => findPivot pivot (pi + 1) rest

def linsert (pivot val : Bytes) (position : ListObject.InsertPosition) (list : PagedList) :
    Int × PagedList :=
  match findPivot pivot 0 list.pages with
  | none => (-1, list)
  | some (pi, offset) =>
    let offset :=
      match position with
      | .before => offset
      | .after => offset + 1
    let list := list.insertIntoPage pi offset val
    (list.len, list)

variable (fromLeft toLeft : Bool)

def lmove (source destination : PagedList) : Option Bytes × PagedList × PagedList :=
  match source.popInner fromLeft with
  | none => (none, source, destination)
  | some (val, source) => (some val, source, destination.pushInner toLeft val)

def peek (atLeft : Bool) (list : PagedList) : Option Bytes :=
  if atLeft then list.pages.head?.bind (·.head?) else list.pages.getLast?.bind (·.getLast?)

def rotate (list : PagedList) : Option Bytes × PagedList :=
  if list.len = 0 then (none, list)
  else if fromLeft = toLeft then (list.peek toLeft, list)
  else
    match list.popInner fromLeft with
    | none => (none, list)
    | some (val, list) =>
      let list := list.pushInner toLeft val
      (list.peek toLeft, list)

/-- The body of the loops of `transfer_to` on a single list. -/
def turn (list : PagedList) : PagedList :=
  match list.popInner fromLeft with
  | none => list
  | some (val, list) => list.pushInner toLeft val

/-- `ListObject::transfer_to` from a list to itself. -/
def transferWithin (count : Nat) (fromLeft toLeft : Bool) (list : PagedList) : Nat × PagedList :=
  let takeCount := min count list.len
  if takeCount = 0 then (0, list)
  else if fromLeft = toLeft then (takeCount, list)
  else (takeCount, (turn fromLeft toLeft)^[takeCount] list)

/-- `ListObject::transfer_to` between two lists. -/
def transferTo (count : Nat) (fromLeft toLeft : Bool) (source destination : PagedList) :
    Nat × PagedList × PagedList :=
  let takeCount := min count source.len
  if takeCount = 0 then (0, source, destination)
  else
    let (destination, source) :=
      source.drainInto fromLeft (fun list val => list.pushInner toLeft val) takeCount destination
    (takeCount, source, destination)

/-- `i32::from_le_bytes` on the first four bytes. -/
def int32OfLe (bytes : Bytes) : Int :=
  Int.bmod ((bytes.take 4).foldr (fun byte value => byte.toNat + 256 * value) 0 : Nat) (2 ^ 32)

/-- The loop of `deserialize`. -/
def readItems : Nat → Bytes → PagedList → Except ListError PagedList
  | 0, _, list => .ok list
  | count + 1, rest, list =>
    if rest.length < 4 then .error .bufferTooShort
    else
      let itemLen := int32OfLe rest
      if itemLen < 0 then .error .corruptedData
      else if (rest.drop 4).length < itemLen.toNat then .error .bufferTooShort
      else
        readItems count ((rest.drop 4).drop itemLen.toNat)
          (list.pushBackInner ((rest.drop 4).take itemLen.toNat))

def deserialize (buf : Bytes) : Except ListError PagedList :=
  if buf.length < 4 then .error .bufferTooShort
  else
    let count := int32OfLe buf
    if count < 0 then .error .corruptedData
    else if (buf.length - 4) / 4 < count.toNat then .error .corruptedData
    else readItems count.toNat (buf.drop 4) new

end PagedList

end Wedb.Object
