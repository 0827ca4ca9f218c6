/-
What each operation on the pages of a list does to the sequence of its elements. A paged list
represents a sequence if its pages are well-sized, hold it in order, and the cached length is right.
-/

import Mathlib.Data.List.Induction
import Wedb.Chunks
import Wedb.PagedList

namespace Wedb.Object.PagedList

open Chunks List

variable {items : List Bytes} {list : PagedList}

/-- The pages of `list`, well filled, hold `items`. -/
structure Represents (list : PagedList) (items : List Bytes) : Prop where
  sized : Sized defaultPageCapacity list.pages
  length : list.len = (list.pages.map List.length).sum
  content : list.pages.flatten = items

theorem Represents.len (holds : Represents list items) : list.len = items.length := by
  rw [holds.length, ← holds.content, length_flatten]

variable {pages before after : List Page}

theorem represents_of_len {len : Nat} (sized : Sized defaultPageCapacity pages)
    (content : pages.flatten = items) (length : len = items.length) :
    Represents ⟨pages, len⟩ items :=
  ⟨sized, by rw [length, ← content, length_flatten], content⟩

theorem represents_new : Represents new [] := represents_of_len (sized_nil _) rfl rfl

theorem represents_twoPages : Represents ⟨[[[1], [2]], [[1]]], 3⟩ [[1], [2], [1]] :=
  represents_of_len (by unfold Sized; decide) rfl rfl

theorem Represents.pages_eq_nil (holds : Represents list []) : list.pages = [] := by
  cases pages : list.pages with
  | nil => rfl
  | cons page rest =>
    have sized := holds.sized
    have content := holds.content
    rw [pages, sized_cons] at sized
    rw [pages, flatten_cons, append_eq_nil_iff] at content
    exact absurd content.1 sized.1.1

theorem represents_clearPhysical (holds : Represents list items) :
    Represents list.clearPhysical items := by
  unfold clearPhysical
  split_ifs with empty
  · have none : items = [] := eq_nil_of_length_eq_zero (by rw [← holds.len, empty])
    subst none
    exact represents_of_len (sized_nil _) rfl empty
  · exact holds

variable (val : Bytes) {page : Page}

theorem isFull_eq_false : Page.isFull page = false ↔ page.length < defaultPageCapacity := by
  rw [Page.isFull, decide_eq_false_iff_not, Nat.not_le]

theorem remainingCapacity_pos : 0 < Page.remainingCapacity page ↔ Page.isFull page = false := by
  rw [isFull_eq_false, Page.remainingCapacity, Nat.sub_pos_iff_lt]

theorem pushFront_of_room (room : Page.isFull page = false) :
    Page.pushFront val page = val :: page := by
  rw [Page.pushFront, room]
  rfl

theorem pushBack_of_room (room : Page.isFull page = false) :
    Page.pushBack val page = page ++ [val] := by
  rw [Page.pushBack, room]
  rfl

theorem sized_singleton : Sized defaultPageCapacity [[val]] := by
  rw [sized_cons]
  exact ⟨⟨cons_ne_nil _ _, (by decide : 1 ≤ defaultPageCapacity)⟩, sized_nil _⟩

theorem represents_pushFrontInner (holds : Represents list items) :
    Represents (list.pushFrontInner val) (val :: items) := by
  have sized := holds.sized
  have content := holds.content
  have length := congrArg (· + 1) holds.len
  have fresh : Page.pushFront val [] = [val] := pushFront_of_room val (by decide)
  unfold pushFrontInner
  split
  · next page rest pages =>
    rw [pages] at sized content
    split_ifs with room
    · have open' := remainingCapacity_pos.mp room
      rw [sized_cons] at sized
      rw [pushFront_of_room val open']
      refine represents_of_len (sized_cons.mpr ⟨⟨cons_ne_nil _ _, ?_⟩, sized.2⟩) ?_ length
      · exact isFull_eq_false.mp open'
      · rw [← content]
        rfl
    · rw [fresh]
      exact represents_of_len (sized_append.mpr ⟨sized_singleton val, sized⟩)
        (congrArg (val :: ·) content) length
  · next pages =>
    rw [pages] at content
    rw [fresh]
    exact represents_of_len (sized_singleton val) (congrArg (val :: ·) content) length

theorem represents_pushBackInner (holds : Represents list items) :
    Represents (list.pushBackInner val) (items ++ [val]) := by
  have sized := holds.sized
  have content := holds.content
  have length : list.len + 1 = (items ++ [val]).length := by
    rw [holds.len, length_append, length_singleton]
  have fresh : Page.pushBack val [] = [val] := pushBack_of_room val (by decide)
  have opened : Represents ⟨list.pages ++ [Page.pushBack val []], list.len + 1⟩
      (items ++ [val]) := by
    rw [fresh]
    refine represents_of_len (sized_append.mpr ⟨sized, sized_singleton val⟩) ?_ length
    rw [flatten_append, content]
    rfl
  unfold pushBackInner
  split
  · next page last =>
    split_ifs with room
    · have open' := remainingCapacity_pos.mp room
      have pages := dropLast_append_getLast? page last
      rw [← pages, sized_append] at sized
      rw [← pages, flatten_append, flatten_cons, flatten_nil, append_nil] at content
      rw [pushBack_of_room val open']
      refine represents_of_len (sized_append.mpr ⟨sized.1, sized_cons.mpr
        ⟨⟨concat_ne_nil _ _, ?_⟩, sized_nil _⟩⟩) ?_ length
      · rw [length_append, length_singleton]
        exact isFull_eq_false.mp open'
      · rw [flatten_append, flatten_cons, flatten_nil, append_nil, ← append_assoc, content]
    · exact opened
  · exact opened

theorem represents_pushInner (toLeft : Bool) (val : Bytes) (holds : Represents list items) :
    Represents (list.pushInner toLeft val) (ListObject.pushOne toLeft val items) := by
  cases toLeft with
  | true => exact represents_pushFrontInner val holds
  | false => exact represents_pushBackInner val holds

theorem popInner_nil (fromLeft : Bool) (holds : Represents list []) :
    list.popInner fromLeft = none := by
  cases fromLeft with
  | true =>
    change list.popFrontInner = none
    rw [popFrontInner, holds.pages_eq_nil]
  | false =>
    change list.popBackInner = none
    rw [popBackInner, holds.pages_eq_nil]
    rfl

variable {val}

theorem popFrontInner_cons (holds : Represents list (val :: items)) :
    ∃ rest, list.popFrontInner = some (val, rest) ∧ Represents rest items := by
  have sized := holds.sized
  have content := holds.content
  have length : list.len - 1 = items.length := by
    rw [holds.len, length_cons, Nat.add_sub_cancel]
  cases pages : list.pages with
  | nil =>
    rw [pages] at content
    exact absurd content (cons_ne_nil _ _).symm
  | cons page rest =>
    rw [pages, sized_cons] at sized
    rw [pages, flatten_cons] at content
    cases page with
    | nil => exact absurd rfl sized.1.1
    | cons first others =>
      obtain ⟨rfl, others_eq⟩ := List.cons.inj content
      refine ⟨_, by rw [popFrontInner, pages], represents_clearPhysical ?_⟩
      split_ifs with emptied
      · rw [isEmpty_iff.mp emptied] at others_eq
        exact represents_of_len sized.2 others_eq length
      · refine represents_of_len (sized_cons.mpr ⟨⟨?_, ?_⟩, sized.2⟩) others_eq length
        · exact fun none => emptied (isEmpty_iff.mpr none)
        · exact (Nat.le_succ _).trans sized.1.2

theorem popBackInner_append (holds : Represents list (items ++ [val])) :
    ∃ rest, list.popBackInner = some (val, rest) ∧ Represents rest items := by
  have sized := holds.sized
  have content := holds.content
  have length : list.len - 1 = items.length := by
    rw [holds.len, length_append, length_singleton, Nat.add_sub_cancel]
  rcases eq_nil_or_concat' list.pages with pages | ⟨before, page, pages⟩
  · rw [pages] at content
    exact absurd content (concat_ne_nil _ _).symm
  · rw [pages, sized_append, sized_cons] at sized
    rw [pages, flatten_append, flatten_cons, flatten_nil, append_nil] at content
    rcases eq_nil_or_concat' page with rfl | ⟨others, last, rfl⟩
    · exact absurd rfl sized.2.1.1
    · rw [← append_assoc] at content
      obtain ⟨others_eq, same⟩ := append_inj' content rfl
      obtain rfl := (List.cons.inj same).1
      have found : list.popBackInner = some (last, clearPhysical
          ⟨if others.isEmpty then before else before ++ [others], list.len - 1⟩) := by
        simp only [popBackInner, pages, getLast?_concat, dropLast_concat,
          Option.bind_eq_bind, Option.bind_some]
      refine ⟨_, found, represents_clearPhysical ?_⟩
      split_ifs with emptied
      · rw [isEmpty_iff.mp emptied, append_nil] at others_eq
        exact represents_of_len sized.1 others_eq length
      · refine represents_of_len (sized_append.mpr ⟨sized.1, sized_cons.mpr
          ⟨⟨?_, ?_⟩, sized_nil _⟩⟩) ?_ length
        · exact fun none => emptied (isEmpty_iff.mpr none)
        · refine le_trans ?_ sized.2.1.2
          rw [length_append]
          exact Nat.le_add_right _ _
        · rw [flatten_append, flatten_cons, flatten_nil, append_nil, others_eq]

theorem popInner_of_popOne {others : List Bytes} {fromLeft : Bool} (holds : Represents list items)
    (popped : ListObject.popOne fromLeft items = some (val, others)) :
    ∃ rest, list.popInner fromLeft = some (val, rest) ∧ Represents rest others := by
  cases fromLeft with
  | true =>
    cases items with
    | nil => cases popped
    | cons first tail =>
      cases popped
      exact popFrontInner_cons holds
  | false =>
    rcases eq_nil_or_concat' items with rfl | ⟨front, last, rfl⟩
    · cases popped
    · simp only [ListObject.popOne, Bool.false_eq_true, if_false, reverse_concat] at popped
      cases popped
      rw [reverse_reverse]
      exact popBackInner_append holds

variable {idx : Nat}

theorem locateFront_place (pages : List Page) (pi acc : Nat) (lower : acc ≤ idx)
    (upper : idx < acc + pages.flatten.length) :
    ∃ before page after, pages = before ++ page :: after ∧
      acc + before.flatten.length ≤ idx ∧ idx < acc + before.flatten.length + page.length ∧
      locateFront idx pi acc pages =
        some (pi + before.length, idx - (acc + before.flatten.length)) := by
  induction pages generalizing pi acc with
  | nil =>
    rw [flatten_nil, length_nil] at upper
    omega
  | cons page rest ih =>
    rw [locateFront]
    split_ifs with here
    · exact ⟨[], page, rest, rfl, lower, here, rfl⟩
    · rw [flatten_cons, length_append, ← Nat.add_assoc] at upper
      obtain ⟨before, found, after, rfl, low, high, located⟩ :=
        ih (pi + 1) (acc + page.length) (Nat.not_lt.mp here) upper
      refine ⟨page :: before, found, after, rfl, ?_⟩
      rw [located, flatten_cons, length_append, length_cons, ← Nat.add_assoc,
        Nat.add_right_comm pi 1]
      exact ⟨low, high, rfl⟩

theorem locateBack_place (pages : List Page) (upper : idx < pages.flatten.length) :
    ∃ before page after, pages = before ++ page :: after ∧
      before.flatten.length ≤ idx ∧ idx < before.flatten.length + page.length ∧
      locateBack idx pages.flatten.length pages.reverse =
        some (before.length, idx - before.flatten.length) := by
  induction pages using List.reverseRecOn with
  | nil => exact absurd upper (Nat.not_lt_zero _)
  | append_singleton front page ih =>
    have before : (front ++ [page]).flatten.length - page.length = front.flatten.length := by
      rw [flatten_concat, length_append, Nat.add_sub_cancel]
    rw [reverse_concat, locateBack, before, length_reverse]
    split_ifs with here
    · rw [flatten_concat, length_append] at upper
      exact ⟨front, page, [], rfl, here, upper, rfl⟩
    · obtain ⟨first, found, after, rfl, low, high, located⟩ := ih (Nat.not_le.mp here)
      exact ⟨first, found, after ++ [page], by rw [append_assoc]; rfl, low, high, located⟩

theorem locate_place (holds : Represents list items) (inside : idx < items.length) :
    ∃ place, list.locate idx = some place ∧ Place list.pages place idx := by
  have total : list.len = list.pages.flatten.length := by rw [holds.len, holds.content]
  have upper : idx < list.pages.flatten.length := by rwa [holds.content]
  rw [locate, if_neg (by omega)]
  split_ifs with near
  · obtain ⟨before, page, after, pages, low, high, located⟩ :=
      locateFront_place list.pages 0 0 (Nat.zero_le _) (by rwa [Nat.zero_add])
    refine ⟨_, located, before, page, after, pages, Nat.zero_add _, ?_, ?_⟩ <;> dsimp only <;> omega
  · obtain ⟨before, page, after, pages, low, high, located⟩ := locateBack_place list.pages upper
    rw [← total] at located
    refine ⟨_, located, before, page, after, pages, rfl, ?_, ?_⟩ <;> dsimp only <;> omega

theorem represents_set {place : Nat × Nat} (val : Bytes) (holds : Represents list items)
    (found : Place list.pages place idx) :
    ∃ page, list.pages[place.1]? = some page ∧ place.2 < page.length ∧
      Represents { list with pages := list.pages.set place.1 (page.set place.2 val) }
        (items.set idx val) := by
  obtain ⟨before, page, after, pages, number, inside, rfl⟩ := found
  have sized := holds.sized
  have content := holds.content
  rw [pages, sized_append, sized_cons] at sized
  rw [pages, flatten_middle] at content
  refine ⟨page, by rw [pages, number, getElem?_middle], inside, ?_⟩
  rw [pages, number, set_middle]
  refine represents_of_len (sized_append.mpr ⟨sized.1, sized_cons.mpr ⟨⟨?_, ?_⟩, sized.2.2⟩⟩) ?_
    (by rw [holds.len, length_set])
  · exact fun none => sized.2.1.1 ((set_eq_nil_iff _ _).mp none)
  · rw [length_set]
    exact sized.2.1.2
  · rw [flatten_middle, ← content, set_append_right _ _ (Nat.le_add_right _ _),
      Nat.add_sub_cancel_left, set_append_left _ _ inside]

theorem removeAt_middle {front back : List Bytes} (holds : Represents list (front ++ val :: back)) :
    ∃ rest, list.removeAt front.length = some (val, rest) ∧ Represents rest (front ++ back) := by
  have inside : front.length < (front ++ val :: back).length := by
    rw [length_append, length_cons]
    omega
  obtain ⟨place, located, found⟩ := locate_place holds inside
  obtain ⟨page, atNumber, atOffset⟩ := found.read
  obtain ⟨before, page', after, pages, number, offset, index⟩ := found
  have same : page = page' := by
    rw [pages, number, getElem?_middle] at atNumber
    exact (Option.some.inj atNumber).symm
  subst same
  have sized := holds.sized
  have content := holds.content
  rw [pages, sized_append, sized_cons] at sized
  rw [holds.content, getElem?_append_right (Nat.le_refl _), Nat.sub_self,
    getElem?_cons_zero] at atOffset
  have erased : before.flatten ++ (page.eraseIdx place.2 ++ after.flatten) = front ++ back := by
    have whole : (before.flatten ++ (page ++ after.flatten)).eraseIdx
        (before.flatten.length + place.2) = front ++ back := by
      rw [← index, ← flatten_middle, ← pages, content, eraseIdx_append_of_length_le (Nat.le_refl _),
        Nat.sub_self, eraseIdx_cons_zero]
    rw [← whole, eraseIdx_append_of_length_le (Nat.le_add_right _ _),
      Nat.add_sub_cancel_left, eraseIdx_append_of_lt_length offset]
  have length : list.len - 1 = (front ++ back).length := by
    rw [holds.len, length_append, length_append, length_cons]
    omega
  have removed : list.removeAt front.length = some (val, clearPhysical
      ⟨if (page.eraseIdx place.2).isEmpty then before ++ after
        else before ++ page.eraseIdx place.2 :: after, list.len - 1⟩) := by
    simp only [removeAt, located, atNumber, atOffset, Option.bind_eq_bind, Option.bind_some]
    rw [pages, number, eraseIdx_middle, set_middle]
  refine ⟨_, removed, represents_clearPhysical ?_⟩
  split_ifs with emptied
  · rw [isEmpty_iff.mp emptied, nil_append, ← flatten_append] at erased
    exact represents_of_len (sized_append.mpr ⟨sized.1, sized.2.2⟩) erased length
  · refine represents_of_len (sized_append.mpr ⟨sized.1, sized_cons.mpr ⟨⟨?_, ?_⟩, sized.2.2⟩⟩)
      (by rw [flatten_middle, erased]) length
    · exact fun none => emptied (isEmpty_iff.mpr none)
    · exact (length_eraseIdx_le _ _).trans sized.2.1.2

theorem represents_divided {left right : Page} {len : Nat}
    (sizedBefore : Sized defaultPageCapacity before) (sizedAfter : Sized defaultPageCapacity after)
    (sizedHalves : Sized defaultPageCapacity [left, right])
    (content : before.flatten ++ (left ++ right) ++ after.flatten = items)
    (length : len = items.length) :
    Represents ⟨(before ++ left :: after).insertIdx (before.length + 1) right, len⟩ items := by
  have spread : (before ++ left :: after).insertIdx (before.length + 1) right =
      before ++ ([left, right] ++ after) := by
    have inserted := insertIdx_middle (before ++ [left]) after right
    rwa [append_assoc, append_assoc, length_append, length_singleton] at inserted
  rw [spread]
  refine represents_of_len (sized_append.mpr ⟨sizedBefore, sized_append.mpr
    ⟨sizedHalves, sizedAfter⟩⟩) ?_ length
  rw [← content]
  simp only [flatten_append, flatten_cons, flatten_nil, append_nil, append_assoc]

theorem represents_insertIntoPage {front back : Page}
    (holds : Represents list (before.flatten ++ (front ++ back) ++ after.flatten))
    (pages : list.pages = before ++ (front ++ back) :: after) :
    Represents (list.insertIntoPage before.length front.length val)
      (before.flatten ++ (front ++ val :: back) ++ after.flatten) := by
  have sized := holds.sized
  have length : list.len + 1 =
      (before.flatten ++ (front ++ val :: back) ++ after.flatten).length := by
    rw [holds.len]
    simp only [length_append, length_cons]
    omega
  have capacity : defaultPageCapacity = 64 := rfl
  rw [pages, sized_append, sized_cons] at sized
  obtain ⟨sizedBefore, ⟨-, fits⟩, sizedAfter⟩ := sized
  rw [length_append] at fits
  simp only [insertIntoPage, pages, getElem?_middle, set_middle, Page.split, length_append]
  split_ifs with room early
  · rw [isFull_eq_false, length_append] at room
    rw [insertIdx_middle]
    refine represents_of_len (sized_append.mpr ⟨sizedBefore, sized_cons.mpr
      ⟨⟨?_, ?_⟩, sizedAfter⟩⟩) (by rw [flatten_middle, ← append_assoc]) length
    · exact append_ne_nil_of_right_ne_nil _ (cons_ne_nil _ _)
    · rw [length_append, length_cons]
      omega
  · -- The new element goes to the first half.
    rw [take_append, drop_append, take_of_length_le early.le,
      drop_of_length_le early.le, nil_append, insertIdx_middle]
    refine represents_divided sizedBefore sizedAfter ?_ ?_ length
    · simp only [sized_cons, sized_nil, and_true, ← length_pos_iff, length_append,
        length_cons, length_take, length_drop]
      omega
    · rw [append_assoc front, cons_append, take_append_drop]
  · -- The new element goes to the second half.
    rw [Bool.not_eq_false, Page.isFull, decide_eq_true_eq, length_append] at room
    have late := Nat.not_lt.mp early
    have rest : front.length - (front.length + back.length) / 2 =
        (front.drop ((front.length + back.length) / 2)).length := length_drop.symm
    rw [take_append_of_le_length late, drop_append_of_le_length late, rest, insertIdx_middle]
    refine represents_divided sizedBefore sizedAfter ?_ ?_ length
    · simp only [sized_cons, sized_nil, and_true, ← length_pos_iff, length_append,
        length_cons, length_take, length_drop]
      omega
    · dsimp only
      rw [← append_assoc (List.take _ _), take_append_drop]

end Wedb.Object.PagedList
