/-
What the iterators over a paged list yield and what trimming leaves. The draining iterator leaves
the elements around its range; trimming drops whole pages and cuts those at the borders.
-/

import Wedb.PagedEdits

namespace Wedb.Object.PagedList

open Chunks List

/-- Calls of `next`, where an end is true, and `next_back`: the answers and the iterator left. -/
def yields {σ : Type} (next nextBack : σ → Option (Bytes × σ)) :
    List Bool → σ → List (Option Bytes) × σ
  | [], iterator => ([], iterator)
  | atFront :: ends, iterator =>
    let taken := if atFront then next iterator else nextBack iterator
    let rest := yields next nextBack ends ((taken.map Prod.snd).getD iterator)
    (taken.map Prod.fst :: rest.1, rest.2)

/-- Every call takes an element off its end of the elements an iterator shows. -/
structure Exact {σ : Type} (shows : σ → List Bytes → Prop)
    (next nextBack : σ → Option (Bytes × σ)) : Prop where
  none {iterator : σ} : shows iterator [] → next iterator = none ∧ nextBack iterator = none
  front {iterator : σ} {item : Bytes} {window : List Bytes} : shows iterator (item :: window) →
    ∃ after, next iterator = some (item, after) ∧ shows after window
  back {iterator : σ} {item : Bytes} {window : List Bytes} : shows iterator (window ++ [item]) →
    ∃ after, nextBack iterator = some (item, after) ∧ shows after window

variable {σ : Type} {window : List Bytes}

theorem Exact.yields {shows : σ → List Bytes → Prop}
    {next nextBack : σ → Option (Bytes × σ)} (exact : Exact shows next nextBack)
    (ends : List Bool) {iterator : σ} (shown : shows iterator window) :
    let given := yields next nextBack ends iterator
    let owed := yields (ListObject.popOne true) (ListObject.popOne false) ends window
    given.1 = owed.1 ∧ shows given.2 owed.2 := by
  induction ends generalizing iterator window with
  | nil => exact ⟨rfl, shown⟩
  | cons atFront ends ih =>
    simp only [PagedList.yields, ListObject.popOne]
    cases atFront with
    | true =>
      cases window with
      | nil => simpa [exact.none shown] using ih shown
      | cons item window =>
        obtain ⟨after, taken, remains⟩ := exact.front shown
        simpa [taken] using ih remains
    | false =>
      rcases eq_nil_or_concat' window with rfl | ⟨window, item, rfl⟩
      · simpa [exact.none shown] using ih shown
      · obtain ⟨after, taken, remains⟩ := exact.back shown
        simpa [taken] using ih remains

variable {items : List Bytes} {list : PagedList}

/-- The iterator has the elements of a window of the pages to come, with a cursor at each end. -/
structure Slices.Shows (slices : Slices) (window : List Bytes) : Prop where
  sized : Sized defaultPageCapacity slices.pages
  count : slices.remaining = window.length
  places : window ≠ [] → ∃ before after, slices.pages.flatten = before ++ (window ++ after) ∧
    Place slices.pages slices.front before.length ∧
      Place slices.pages slices.back (before.length + window.length - 1)

theorem slices_exact : Exact Slices.Shows Slices.next Slices.nextBack where
  none shown := ⟨if_pos shown.count, if_pos shown.count⟩
  front {slices item window} shown := by
    obtain ⟨sized, count, places⟩ := shown
    obtain ⟨before, after, content, front, back⟩ := places (cons_ne_nil _ _)
    rw [length_cons] at count back
    obtain ⟨page, number, offset⟩ := front.read
    rw [content, cons_append, getElem?_middle] at offset
    simp only [Slices.next, count, Nat.succ_ne_zero, if_false, number, offset,
      Option.bind_eq_bind, Option.bind_some, Nat.add_sub_cancel]
    refine ⟨_, rfl, ?_⟩
    split_ifs with more
    · obtain ⟨page', number', moved⟩ := front.next sized (by simp [content]; omega)
      obtain rfl := Option.some.inj (number.symm.trans number')
      have places : ∃ before after, slices.pages.flatten = before ++ (window ++ after) ∧
          Place slices.pages _ before.length ∧
            Place slices.pages slices.back (before.length + window.length - 1) :=
        ⟨before ++ [item], after, by simp [content], by simpa using moved, by
          convert back using 1
          simp⟩
      simp only [Slices.advanceFront, number]
      split_ifs at places ⊢
      · exact ⟨sized, rfl, fun _ => places⟩
      · exact ⟨sized, rfl, fun _ => places⟩
    · exact ⟨sized, rfl, fun some => absurd (length_pos_iff.mpr some) more⟩
  back {slices item window} shown := by
    obtain ⟨sized, count, places⟩ := shown
    obtain ⟨before, after, content, front, back⟩ := places (by simp)
    have split : before ++ (window ++ [item] ++ after) = (before ++ window) ++ item :: after := by
      simp only [append_assoc, singleton_append]
    rw [split] at content
    rw [length_append, length_singleton] at count back
    have last : before.length + (window.length + 1) - 1 = (before ++ window).length := by
      simp
    rw [last] at back
    obtain ⟨page, number, offset⟩ := back.read
    rw [content, getElem?_middle] at offset
    simp only [Slices.nextBack, count, Nat.succ_ne_zero, if_false, number, offset,
      Option.bind_eq_bind, Option.bind_some, Nat.add_sub_cancel]
    refine ⟨_, rfl, ?_⟩
    split_ifs with more
    · have index : (before ++ window).length = (before.length + window.length - 1) + 1 := by
        rw [length_append]
        omega
      have moved := (index ▸ back).prev sized
      rw [append_assoc] at content
      rw [Slices.advanceBack]
      by_cases start : slices.back.2 = 0
      · rw [if_pos start] at moved ⊢
        obtain ⟨notFirst, page, number, moved⟩ := moved
        simp only [if_neg notFirst, number]
        exact ⟨sized, rfl, fun _ => ⟨before, item :: after, content, front, moved⟩⟩
      · rw [if_neg start] at moved ⊢
        exact ⟨sized, rfl, fun _ => ⟨before, item :: after, content, front, moved⟩⟩
    · exact ⟨sized, rfl, fun some => absurd (length_pos_iff.mpr some) more⟩

theorem shows_slices (holds : Represents list items) (start : Nat) {stop : Nat}
    (inside : stop ≤ items.length) :
    (list.slices start stop).Shows ((items.drop start).take (stop - start)) := by
  have size : ((items.drop start).take (stop - start)).length = stop - start := by
    rw [length_take, length_drop]
    omega
  rw [slices]
  split_ifs with empty
  · rw [Nat.sub_eq_zero_of_le empty]
    exact ⟨holds.sized, rfl, fun some => absurd rfl some⟩
  · have more : start < stop := Nat.not_le.mp empty
    obtain ⟨front, located, first⟩ := locate_place holds (more.trans_le inside)
    obtain ⟨back, locatedBack, last⟩ := locate_place holds
      (Nat.sub_one_lt_of_le (Nat.zero_lt_of_lt more) inside)
    have before : (items.take start).length = start :=
      length_take_of_le (more.le.trans inside)
    rw [located, locatedBack]
    refine ⟨holds.sized, size.symm, fun _ => ⟨items.take start,
      (items.drop start).drop (stop - start), ?_, before.symm ▸ first, ?_⟩⟩
    · rw [take_append_drop, take_append_drop]
      exact holds.content
    · rw [before, size, Nat.add_sub_cancel' more.le]
      exact last

theorem collect_eq {slices : Slices} (shown : slices.Shows window) :
    slices.collect slices.remaining = window := by
  rw [shown.count]
  induction window generalizing slices with
  | nil => rfl
  | cons item window ih =>
    obtain ⟨rest, next, remains⟩ := slices_exact.front shown
    rw [length_cons, Slices.collect, next]
    exact congrArg (item :: ·) (ih remains)

theorem collectBack_eq {slices : Slices} (shown : slices.Shows window) :
    slices.collectBack slices.remaining = window.reverse := by
  rw [shown.count]
  induction window using List.reverseRecOn generalizing slices with
  | nil => rfl
  | append_singleton window item ih =>
    obtain ⟨rest, next, remains⟩ := slices_exact.back shown
    rw [length_append, length_singleton, Slices.collectBack, next, reverse_concat]
    exact congrArg (item :: ·) (ih remains)

/-- The positions of an element among the first `maxlen`, unless that is zero, from the match of the
given rank on, up to a count. -/
def positions (element : Bytes) (rank : Int) (count : Option Nat) (maxlen : Nat)
    (items : List Bytes) : List Nat :=
  let scan := if 0 < rank then items.zipIdx else items.zipIdx.reverse
  let compared := if maxlen = 0 then scan else scan.take maxlen
  let ranked := ((compared.filter (·.1 = element)).map Prod.snd).drop (rank.natAbs - 1)
  if count = some 0 then ranked else ranked.take (count.getD 1)

theorem lposLoop_eq (element : Bytes) {targetCount : Nat} (entries : List (Bytes × Nat))
    (skip : Nat) (found : List Nat) (room : found.length < targetCount) :
    lposLoop element targetCount entries skip found =
      found ++ ((((entries.filter (·.1 = element)).map Prod.snd).drop skip).take
        (targetCount - found.length)) := by
  induction entries generalizing skip found with
  | nil => simp [lposLoop]
  | cons entry entries ih =>
    rw [lposLoop]
    by_cases same : entry.1 = element
    · rw [if_pos same, filter_cons_of_pos (by simpa using same), map_cons]
      cases skip with
      | succ skip =>
        rw [if_pos (Nat.succ_pos skip), drop_succ_cons]
        exact ih skip found room
      | zero =>
        rw [if_neg (Nat.lt_irrefl 0), length_append, length_singleton, drop_zero]
        have left : targetCount - found.length = (targetCount - (found.length + 1)) + 1 := by
          omega
        rw [left, take_succ_cons]
        split_ifs with full
        · rw [Nat.sub_eq_zero_of_le full, take_zero]
        · rw [ih 0 _ (by simpa using full), drop_zero, append_assoc, singleton_append,
            length_append, length_singleton]
    · rw [if_neg same, ih skip found room, filter_cons_of_neg (by simpa using same)]

/-- The positions found are those of the definition. -/
theorem lpos_eq (holds : Represents list items) (small : items.length < 2 ^ 64)
    (element : Bytes) (rank : Int) (nonzero : rank ≠ 0) (count : Option Nat) (maxlen : Nat) :
    list.lpos element rank count maxlen = positions element rank count maxlen items := by
  have shown : (list.slices 0 items.length).Shows items := by
    simpa using shows_slices holds 0 (Nat.le_refl items.length)
  have backward : (items.reverse.zipIdx.map fun entry => (entry.1, items.length - 1 - entry.2)) =
      items.zipIdx.reverse :=
    ext_getElem (by simp) fun _ _ _ => by simp
  rw [lpos, positions, holds.len]
  dsimp only
  rw [collect_eq shown, collectBack_eq shown, backward]
  generalize direction : (if 0 < rank then items.zipIdx else items.zipIdx.reverse) = scan
  have size : scan.length = items.length := by
    rw [← direction]
    split_ifs <;> simp
  have compared : scan.take (if maxlen = 0 then items.length else min maxlen items.length) =
      if maxlen = 0 then scan else scan.take maxlen := by
    rw [← size]
    split_ifs
    · rw [take_length]
    · rw [← take_take, take_length]
  rw [compared]
  generalize matched : (((if maxlen = 0 then scan else scan.take maxlen).filter
    (·.1 = element)).map Prod.snd).drop (rank.natAbs - 1) = ranked
  by_cases empty : items.length = 0
  · have none : scan = [] := eq_nil_of_length_eq_zero (size.trans empty)
    rw [if_pos (.inr empty), ← matched, none]
    simp
  · have few : ranked.length < 2 ^ 64 := by
      rw [← matched, length_drop, length_map]
      refine ((Nat.sub_le _ _).trans (length_filter_le _ _)).trans_lt ?_
      split_ifs
      · exact size ▸ small
      · exact (length_take_le' _ _).trans_lt (size ▸ small)
    rw [if_neg (not_or.mpr ⟨nonzero, empty⟩), lposLoop_eq, matched, nil_append, length_nil,
      Nat.sub_zero]
    · split_ifs
      · exact take_of_length_le (Nat.le_sub_one_of_lt few)
      · rfl
    · rcases count with _ | _ | c <;> simp

theorem lpos_eq_last : lpos [1] (-1) none 0 ⟨[[[1], [2]], [[1]]], 3⟩ = [2] :=
  lpos_eq represents_twoPages (by decide) [1] (-1) (by decide) none 0

variable {front back : List Bytes}

structure Drain.Shows (front back : List Bytes) (drain : Drain) (window : List Bytes) : Prop where
  start : drain.start = front.length
  count : drain.remaining = window.length
  holds : Represents drain.list (front ++ (window ++ back))

theorem drain_exact : Exact (Drain.Shows front back) Drain.next Drain.nextBack where
  none shown := ⟨if_pos shown.count, if_pos shown.count⟩
  front {drain item window} shown := by
    obtain ⟨start, count, holds⟩ := shown
    rw [length_cons] at count
    rw [Drain.next, count, if_neg (Nat.succ_ne_zero _)]
    split_ifs with atFront
    · obtain rfl := eq_nil_of_length_eq_zero (start.symm.trans atFront)
      obtain ⟨rest, popped, remains⟩ := popFrontInner_cons holds
      exact ⟨⟨rest, _, _⟩, by rw [popped]; rfl, start, rfl, remains⟩
    · obtain ⟨rest, removed, remains⟩ := removeAt_middle holds
      exact ⟨⟨rest, _, _⟩, by rw [start, removed]; rfl, rfl, rfl, remains⟩
  back {drain item window} shown := by
    obtain ⟨start, count, holds⟩ := shown
    have split : front ++ (window ++ [item] ++ back) = (front ++ window) ++ item :: back := by
      simp only [append_assoc, singleton_append]
    rw [split] at holds
    rw [length_append, length_singleton] at count
    have position : drain.start + (window.length + 1) - 1 = (front ++ window).length := by
      rw [start, length_append]
      rfl
    rw [Drain.nextBack, count, if_neg (Nat.succ_ne_zero _), position]
    dsimp only
    split_ifs with atBack
    · rw [holds.len, length_append, length_append, length_cons] at atBack
      obtain rfl : back = [] := eq_nil_of_length_eq_zero (by omega)
      obtain ⟨rest, popped, remains⟩ := popBackInner_append holds
      exact ⟨⟨rest, _, _⟩, by rw [popped]; rfl, start, rfl, by rwa [append_nil]⟩
    · obtain ⟨rest, removed, remains⟩ := removeAt_middle holds
      exact ⟨⟨rest, _, _⟩, by rw [removed]; rfl, start, rfl, append_assoc front _ _ ▸ remains⟩

theorem forEach_next (visit : σ → Bytes → σ) {drain : Drain}
    (state : σ) (shown : drain.Shows front back window) :
    ∃ rest, Drain.forEach Drain.next visit drain.remaining drain state =
        (window.foldl visit state, rest) ∧ Represents rest (front ++ back) := by
  rw [shown.count]
  induction window generalizing drain state with
  | nil => exact ⟨drain.list, rfl, shown.holds⟩
  | cons item window ih =>
    obtain ⟨after, next, remains⟩ := drain_exact.front shown
    rw [length_cons, Drain.forEach, next]
    exact ih (visit state item) remains

theorem forEach_nextBack (visit : σ → Bytes → σ) {drain : Drain} (state : σ)
    (shown : drain.Shows front back window) :
    ∃ rest, Drain.forEach Drain.nextBack visit drain.remaining drain state =
        (window.reverse.foldl visit state, rest) ∧ Represents rest (front ++ back) := by
  rw [shown.count]
  induction window using List.reverseRecOn generalizing drain state with
  | nil => exact ⟨drain.list, rfl, shown.holds⟩
  | append_singleton window item ih =>
    obtain ⟨after, next, remains⟩ := drain_exact.back shown
    rw [length_append, length_singleton, Drain.forEach, next, reverse_concat]
    exact ih (visit state item) remains

theorem shows_drainLeft (count : Nat) (holds : Represents list items) :
    (list.drainLeft count).Shows [] (items.drop count) (items.take count) := by
  refine ⟨rfl, ?_, ?_⟩
  · rw [length_take, ← holds.len]
    rfl
  · rw [nil_append, take_append_drop]
    exact holds

theorem shows_drainRight (count : Nat) (holds : Represents list items) :
    (list.drainRight count).Shows (items.take (items.length - count)) []
      (items.drop (items.length - count)) := by
  rw [drainRight, holds.len]
  refine ⟨?_, ?_, ?_⟩
  · rw [length_take]
    dsimp only
    omega
  · rw [length_drop]
    dsimp only
    omega
  · rw [append_nil, take_append_drop]
    exact holds

/-- In every order of calls at both ends, both iterators yield the elements of a range like a plain
sequence and announce how many are left, and the drained list loses those yielded. -/
theorem iterators_exact (holds : Represents list items) (ends : List Bool) :
    let deque := yields (ListObject.popOne true) (ListObject.popOne false) ends
    (∀ start stop, stop ≤ items.length →
      let run := yields Slices.next Slices.nextBack ends (list.slices start stop)
      let owed := deque ((items.drop start).take (stop - start))
      run.1 = owed.1 ∧ run.2.remaining = owed.2.length) ∧
    ∀ count,
      (let run := yields Drain.next Drain.nextBack ends (list.drainLeft count)
        let owed := deque (items.take count)
        run.1 = owed.1 ∧ run.2.remaining = owed.2.length ∧
          Represents run.2.list (owed.2 ++ items.drop count)) ∧
      let run := yields Drain.next Drain.nextBack ends (list.drainRight count)
      let owed := deque (items.drop (items.length - count))
      run.1 = owed.1 ∧ run.2.remaining = owed.2.length ∧
        Represents run.2.list (items.take (items.length - count) ++ owed.2) := by
  refine ⟨fun start stop inside => ?_, fun count => ⟨?_, ?_⟩⟩
  · obtain ⟨same, shown⟩ := slices_exact.yields ends (shows_slices holds start inside)
    exact ⟨same, shown.count⟩
  · obtain ⟨same, shown⟩ := drain_exact.yields ends (shows_drainLeft count holds)
    exact ⟨same, shown.count, shown.holds⟩
  · obtain ⟨same, shown⟩ := drain_exact.yields ends (shows_drainRight count holds)
    exact ⟨same, shown.count, append_nil (yields _ _ ends _).2 ▸ shown.holds⟩

theorem iterators_exact_twoPages :
    (yields Slices.next Slices.nextBack [true, false, false, true]
      (slices ⟨[[[1], [2]], [[1]]], 3⟩ 0 3)).1 = [some [1], some [1], some [2], none] :=
  ((iterators_exact represents_twoPages _).1 0 3 (by decide)).1

theorem drainInto_eq (fromLeft : Bool) (visit : σ → Bytes → σ) (count : Nat) (state : σ)
    (holds : Represents list items) :
    ∃ rest, list.drainInto fromLeft visit count state =
        (((if fromLeft then items else items.reverse).take count).foldl visit state, rest) ∧
      Represents rest (if fromLeft then items.drop count
        else items.take (items.length - count)) := by
  cases fromLeft with
  | true => exact forEach_next visit state (shows_drainLeft count holds)
  | false =>
    obtain ⟨rest, looped, remains⟩ := forEach_nextBack visit state (shows_drainRight count holds)
    refine ⟨rest, looped.trans ?_, append_nil (items.take _) ▸ remains⟩
    rw [if_neg Bool.false_ne_true, take_reverse]

theorem drainInto_min (list : PagedList) (fromLeft : Bool) (visit : σ → Bytes → σ)
    (count : Nat) (state : σ) :
    list.drainInto fromLeft visit (min count list.len) state =
      list.drainInto fromLeft visit count state := by
  simp only [drainInto, drainLeft, drainRight, min_assoc, min_self]

theorem drainInto_of_none {count : Nat} (none : min count list.len = 0) (fromLeft : Bool)
    (visit : σ → Bytes → σ) (state : σ) :
    list.drainInto fromLeft visit count state = (state, list) := by
  simp only [drainInto, drainLeft, drainRight, none, Drain.forEach, ite_self]

theorem trimHead_eq {pages : List Page} (sized : Sized defaultPageCapacity pages)
    (head removed : Nat) (inside : head ≤ pages.flatten.length) :
    (trimHead head removed pages).1 = removed + head ∧
      Sized defaultPageCapacity (trimHead head removed pages).2 ∧
      (trimHead head removed pages).2.flatten = pages.flatten.drop head := by
  induction pages generalizing head removed with
  | nil =>
    obtain rfl := Nat.eq_zero_of_le_zero inside
    exact ⟨rfl, sized_nil _, rfl⟩
  | cons page rest ih =>
    rw [sized_cons] at sized
    rw [flatten_cons, length_append] at inside
    rw [trimHead]
    split_ifs with done part
    · subst done
      exact ⟨rfl, sized_cons.mpr sized, rfl⟩
    · refine ⟨rfl, sized_cons.mpr ⟨⟨?_, ?_⟩, sized.2⟩, ?_⟩
      · exact ne_nil_of_length_pos (by rw [length_drop]; omega)
      · rw [length_drop]
        omega
      · rw [flatten_cons, flatten_cons, drop_append_of_le_length part.le]
    · obtain ⟨count, sizes, content⟩ :=
        ih sized.2 (head - page.length) (removed + page.length) (by omega)
      have whole : page.drop head = [] := drop_of_length_le (Nat.not_lt.mp part)
      refine ⟨by omega, sizes, ?_⟩
      rw [content, flatten_cons, drop_append, whole, nil_append]

theorem trimTail_eq {pages : List Page} (sized : Sized defaultPageCapacity pages) (tail : Nat) :
    Sized defaultPageCapacity (trimTail tail pages.reverse).reverse ∧
      (trimTail tail pages.reverse).reverse.flatten =
        pages.flatten.take (pages.flatten.length - tail) := by
  induction pages using List.reverseRecOn generalizing tail with
  | nil => exact ⟨sized_nil _, (take_nil).symm⟩
  | append_singleton front page ih =>
    rw [sized_append, sized_cons] at sized
    rw [reverse_concat, trimTail, flatten_concat, length_append]
    split_ifs with done part
    · subst done
      rw [← reverse_concat, reverse_reverse, Nat.sub_zero, ← length_append,
        take_length, flatten_concat]
      exact ⟨sized_append.mpr ⟨sized.1, sized_cons.mpr sized.2⟩, rfl⟩
    · have within : front.flatten.length + page.length - tail =
          front.flatten.length + (page.length - tail) := by omega
      rw [reverse_cons, reverse_reverse, flatten_concat, within, take_length_add_append]
      refine ⟨sized_append.mpr ⟨sized.1, sized_cons.mpr ⟨⟨?_, ?_⟩, sized_nil _⟩⟩, rfl⟩
      · exact ne_nil_of_length_pos (by rw [length_take]; omega)
      · exact (length_take_le' _ _).trans sized.2.1.2
    · obtain ⟨sizes, content⟩ := ih sized.1 (tail - page.length)
      refine ⟨sizes, ?_⟩
      rw [content, take_append_of_le_length (by omega)]
      congr 1
      omega

theorem represents_trim (holds : Represents list items) {first last : Nat} (ordered : first ≤ last)
    (inside : last < items.length) :
    Represents ⟨(trimTail (list.len - (trimHead first 0 list.pages).1 - (last + 1 - first))
        (trimHead first 0 list.pages).2.reverse).reverse, last + 1 - first⟩
      ((items.drop first).take (last + 1 - first)) := by
  have bound : first ≤ list.pages.flatten.length := by
    rw [holds.content]
    omega
  obtain ⟨count, sizedHead, contentHead⟩ := trimHead_eq holds.sized first 0 bound
  obtain ⟨sizedTail, contentTail⟩ := trimTail_eq sizedHead
    (list.len - (trimHead first 0 list.pages).1 - (last + 1 - first))
  refine represents_of_len sizedTail ?_ ?_
  · rw [contentTail, contentHead, holds.content, count, holds.len, length_drop]
    congr 1
    omega
  · rw [length_take, length_drop]
    omega

end Wedb.Object.PagedList
