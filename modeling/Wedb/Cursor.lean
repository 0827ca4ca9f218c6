/-
Scans by cursor, from zero until zero is handed out again. If each page has what lies between its
cursor and the next one, and the next one is larger, the client ends and has seen everything.

A page that is filled from a list ends at its last match. A scan that takes its list for shorter
than it is ends with the first page that reaches the supposed end.
-/

import Mathlib.Data.Set.Basic

namespace Wedb

open List

variable {α : Type} {scan : Nat → Nat × List α} {cursor : Nat} {wanted : α → Prop}

/-- What a client collects from a cursor until zero is returned, if the calls suffice. -/
def scanAll (scan : Nat → Nat × List α) : Nat → Nat → Option (List α)
  | 0, _ => none
  | calls + 1, cursor =>
    if (scan cursor).1 = 0 then some (scan cursor).2
    else (scanAll scan calls (scan cursor).1).map fun items => (scan cursor).2 ++ items

/-- A scan from zero ends after finitely many calls and returns what is wanted. -/
def FullScan (scan : Nat → Nat × List α) (wanted : α → Prop) : Prop :=
  ∃ calls items, scanAll scan calls 0 = some items ∧ ∀ item, item ∈ items ↔ wanted item

theorem scanAll_last (last : (scan cursor).1 = 0) (calls : Nat) :
    scanAll scan (calls + 1) cursor = some (scan cursor).2 := by
  rw [scanAll, if_pos last]

theorem scanAll_next (more : (scan cursor).1 ≠ 0) (calls : Nat) : scanAll scan (calls + 1) cursor =
      (scanAll scan calls (scan cursor).1).map fun items => (scan cursor).2 ++ items := by
  rw [scanAll, if_neg more]

/-- What was collected does not depend on how many calls were allowed. -/
theorem scanAll_more {calls : Nat} {items : List α}
    (collected : scanAll scan calls cursor = some items) (more : Nat) :
    scanAll scan (calls + more) cursor = some items := by
  induction calls generalizing cursor items with
  | zero => cases collected
  | succ calls ih =>
    rw [Nat.add_right_comm]
    by_cases last : (scan cursor).1 = 0
    · rw [scanAll_last last] at collected ⊢
      exact collected
    · rw [scanAll_next last] at collected ⊢
      obtain ⟨rest, behind, same⟩ := Option.map_eq_some_iff.mp collected
      rw [ih behind, Option.map_some, same]

theorem scanAll_unique {calls others : Nat} {items otherItems : List α}
    (collected : scanAll scan calls cursor = some items)
    (again : scanAll scan others cursor = some otherItems) : items = otherItems := by
  have one := scanAll_more collected others
  rw [Nat.add_comm, scanAll_more again calls] at one
  exact (Option.some.inj one).symm

theorem FullScan.unique {other : α → Prop} (full : FullScan scan wanted)
    (again : FullScan scan other) (item : α) : wanted item ↔ other item := by
  obtain ⟨calls, items, collected, exactly⟩ := full
  obtain ⟨others, otherItems, otherCollected, otherExactly⟩ := again
  rw [← exactly, scanAll_unique collected otherCollected, otherExactly]

/-- Every page has what lies between its cursor and the next one, and the cursor grows. -/
structure Pages (scan : Nat → Nat × List α) (place : Nat → α → Prop) (bound : Nat) : Prop where
  sound : ∀ cursor item, item ∈ (scan cursor).2 → ∃ position, place position item
  covers : ∀ cursor position item, cursor ≤ position → place position item →
    ((scan cursor).1 = 0 ∨ position < (scan cursor).1) → item ∈ (scan cursor).2
  advances : ∀ cursor, (scan cursor).1 = 0 ∨ cursor < (scan cursor).1 ∧ (scan cursor).1 ≤ bound

variable {place : Nat → α → Prop} {bound next number position calls cursor : Nat}

/-- From every cursor the client sees everything that lies behind it. -/
theorem Pages.scanAll_eq (pages : Pages scan place bound)
    (calls cursor : Nat) (inside : cursor ≤ bound) (enough : bound < cursor + calls) :
    ∃ items, scanAll scan calls cursor = some items ∧
      (∀ item ∈ items, ∃ position, place position item) ∧
      ∀ position item, cursor ≤ position → place position item → item ∈ items := by
  induction calls generalizing cursor with
  | zero => omega
  | succ calls ih =>
    by_cases last : (scan cursor).1 = 0
    · exact ⟨_, scanAll_last last calls, fun item member => pages.sound cursor item member,
        fun position item behind placed =>
          pages.covers cursor position item behind placed (.inl last)⟩
    · obtain ⟨grows, within⟩ := (pages.advances cursor).resolve_left last
      obtain ⟨items, collected, sound, covers⟩ := ih (scan cursor).1 within (by omega)
      refine ⟨(scan cursor).2 ++ items, ?_, ?_, ?_⟩
      · rw [scanAll_next last, collected]
        rfl
      · intro item member
        rcases mem_append.mp member with here | later
        · exact pages.sound cursor item here
        · exact sound item later
      · intro position item behind placed
        rw [mem_append]
        by_cases here : position < (scan cursor).1
        · exact .inl (pages.covers cursor position item behind placed (.inr here))
        · exact .inr (covers position item (Nat.le_of_not_lt here) placed)

theorem Pages.fullScan (pages : Pages scan place bound) :
    FullScan scan fun item => ∃ position, place position item := by
  obtain ⟨items, collected, sound, covers⟩ :=
    pages.scanAll_eq (bound + 1) 0 (Nat.zero_le bound) (by omega)
  refine ⟨bound + 1, items, collected, fun item => ⟨sound item, ?_⟩⟩
  rintro ⟨position, placed⟩
  exact covers position item (Nat.zero_le position) placed

theorem FullScan.congr {other : α → Prop} (full : FullScan scan wanted)
    (same : ∀ item, wanted item ↔ other item) : FullScan scan other := by
  obtain ⟨calls, items, collected, exactly⟩ := full
  exact ⟨calls, items, collected, fun item => (exactly item).trans (same item)⟩

theorem fullScan_of_first (last : (scan 0).1 = 0)
    (exactly : ∀ item, item ∈ (scan 0).2 ↔ wanted item) : FullScan scan wanted :=
  ⟨1, (scan 0).2, scanAll_last last 0, exactly⟩

theorem fullScan_nothing (nothing : ∀ item, ¬wanted item) : FullScan (fun _ => (0, [])) wanted :=
  fullScan_of_first rfl fun item => ⟨fun member => (nomatch member), fun there =>
    absurd there (nothing item)⟩

theorem fullScan_of_second {first second : List α} (page : scan 0 = (next, first))
    (last : scan next = (0, second)) (exactly : ∀ item, item ∈ first ++ second ↔ wanted item)
    (more : next ≠ 0) : FullScan scan wanted := by
  refine ⟨2, first ++ second, ?_, exactly⟩
  have more : (scan 0).1 ≠ 0 := by
    rw [page]
    exact more
  have ends : (scan next).1 = 0 := by rw [last]
  rw [scanAll_next more, page, scanAll_last ends, last]
  rfl

/-- Cursors that lead only to each other and never to zero. -/
theorem scanAll_none {cursors : Set Nat}
    (closed : ∀ cursor ∈ cursors, (scan cursor).1 ≠ 0 ∧ (scan cursor).1 ∈ cursors) (calls : Nat)
    (member : cursor ∈ cursors) : scanAll scan calls cursor = none := by
  induction calls generalizing cursor with
  | zero => rfl
  | succ calls ih =>
    obtain ⟨more, inside⟩ := closed cursor member
    rw [scanAll_next more, ih inside]
    rfl

theorem not_fullScan (cursors : Set Nat)
    (closed : ∀ cursor ∈ cursors, (scan cursor).1 ≠ 0 ∧ (scan cursor).1 ∈ cursors)
    (more : (scan 0).1 ≠ 0) (enters : (scan 0).1 ∈ cursors) : ¬FullScan scan wanted := by
  rintro ⟨calls, items, collected, -⟩
  cases calls with
  | zero => cases collected
  | succ calls =>
    rw [scanAll_next more, scanAll_none closed calls enters] at collected
    cases collected

/-- A list has fewer than so many matches, or is cut at that match. -/
theorem few_or_split (found : α → Bool) (positive : 0 < number) (list : List α) :
    (list.filter found).length < number ∨ ∃ before item after, list = before ++ item :: after ∧
      found item ∧ (before.filter found).length + 1 = number := by
  induction list generalizing number with
  | nil => exact .inl positive
  | cons first rest ih =>
    by_cases here : found first
    · by_cases one : number = 1
      · exact .inr ⟨[], first, rest, rfl, here, one.symm⟩
      · have others := @ih (number - 1) (by omega)
        rcases others with few | split
        · refine .inl ?_
          rw [filter_cons_of_pos here, length_cons]
          omega
        · obtain ⟨before, item, after, same, matching, count⟩ := split
          refine .inr ⟨first :: before, item, after, by rw [same]; rfl, matching, ?_⟩
          rw [filter_cons_of_pos here, length_cons]
          omega
    · rcases ih positive with few | split
      · refine .inl ?_
        rw [filter_cons_of_neg here]
        exact few
      · obtain ⟨before, item, after, same, matching, count⟩ := split
        refine .inr ⟨first :: before, item, after, by rw [same]; rfl, matching, ?_⟩
        rw [filter_cons_of_neg here]
        exact count

theorem mem_drop_of_getElem {list : List α} {item : α} (behind : cursor ≤ position)
    (found : list[position]? = some item) : item ∈ list.drop cursor := by
  refine mem_of_getElem? (i := position - cursor) ?_
  rw [getElem?_drop, Nat.add_sub_cancel' behind]
  exact found

/-- Every page has the matches among some entries behind its cursor, and the next cursor is behind
these or, at the end, zero. -/
def Windows (scan : Nat → Nat × List α) (list : List α) (found : α → Bool) : Prop :=
  ∀ cursor, ∃ used, (scan cursor).2 = ((list.drop cursor).take used).filter found ∧
    ((scan cursor).1 = 0 ∧ list.length ≤ cursor + used ∨
      (scan cursor).1 = cursor + used ∧ 0 < used ∧ cursor + used ≤ list.length)

variable {list : List α} {found : α → Bool}

/-- From every cursor the client collects the matches behind it. -/
theorem Windows.scanAll_eq (windows : Windows scan list found)
    (inside : cursor ≤ list.length) (enough : list.length < cursor + calls) :
    scanAll scan calls cursor = some ((list.drop cursor).filter found) := by
  induction calls generalizing cursor with
  | zero => omega
  | succ calls ih =>
    obtain ⟨used, page, ⟨last, whole⟩ | ⟨next, positive, within⟩⟩ := windows cursor
    · rw [scanAll_last last, page, take_of_length_le]
      rw [length_drop]
      omega
    · rw [scanAll_next (by omega), next, ih within (by omega), page, Option.map_some,
        ← filter_append, ← drop_drop, take_append_drop]

theorem Windows.once (windows : Windows scan list found) :
    ∃ calls, scanAll scan calls 0 = some (list.filter found) :=
  ⟨list.length + 1, windows.scanAll_eq (Nat.zero_le _) (by omega)⟩

theorem Windows.fullScan (windows : Windows scan list found) :
    FullScan scan fun item => item ∈ list ∧ found item :=
  windows.once.imp fun _ collected => ⟨_, collected, fun _ => mem_filter⟩

/-! ### Pages that are filled from a list -/

def fill (found : α → Bool) (limit : Nat) : List α → Nat → List α → Bool × Nat × List α
  | [], position, items => (false, position, items)
  | entry :: rest, position, items =>
    if found entry then
      let items := items ++ [entry]
      if limit ≤ items.length then (true, position + 1, items)
      else fill found limit rest (position + 1) items
    else fill found limit rest (position + 1) items

variable {limit : Nat} {before after : List α} {entry : α}

theorem fill_append (before rest items : List α) (position : Nat)
    (room : items.length + (before.filter found).length < limit) :
    fill found limit (before ++ rest) position items =
      fill found limit rest (position + before.length) (items ++ before.filter found) := by
  induction before generalizing position items with
  | nil => simp
  | cons entry before ih =>
    rw [cons_append, fill, length_cons]
    by_cases here : found entry
    · rw [filter_cons_of_pos here, length_cons] at room
      have unfilled : ¬limit ≤ (items ++ [entry]).length := by
        rw [length_append, length_singleton]
        omega
      have next := ih (items ++ [entry]) (position + 1)
        (by rw [length_append, length_singleton]; omega)
      simp only [here, if_true, if_neg unfilled, next, filter_cons_of_pos, append_assoc,
        singleton_append, Nat.add_assoc, Nat.add_comm 1]
    · rw [filter_cons_of_neg here] at room ⊢
      simp only [here, Bool.false_eq_true, if_false, ih items _ room, Nat.add_assoc, Nat.add_comm 1]

theorem fill_few (few : (list.filter found).length < limit) (position : Nat) :
    fill found limit list position [] = (false, position + list.length, list.filter found) := by
  have whole := fill_append list [] [] position (by rwa [length_nil, Nat.zero_add])
  rwa [append_nil] at whole

theorem fill_full (matching : found entry) (count : (before.filter found).length + 1 = limit)
    (position : Nat) : fill found limit (before ++ entry :: after) position [] =
      (true, position + (before.length + 1), (before ++ [entry]).filter found) := by
  rw [fill_append before _ [] position (by rw [length_nil]; omega), fill]
  have full : limit ≤ (before.filter found ++ [entry]).length := by
    rw [length_append, length_singleton]
    omega
  rw [nil_append, if_pos matching, if_pos full, filter_append, filter_cons_of_pos matching,
    filter_nil, Nat.add_assoc]

def nextCursor (total position : Nat) : Nat := if total ≤ position then 0 else position

theorem windows_fill (positive : 0 < limit)
    (pages : ∀ cursor, list.length ≤ cursor ∧ scan cursor = (0, []) ∨
      ∃ full position items, fill found limit (list.drop cursor) cursor [] =
        (full, position, items) ∧ (scan cursor).2 = items ∧
        ((scan cursor).1 = nextCursor list.length position ∨ full = false ∧ (scan cursor).1 = 0)) :
    Windows scan list found := by
  intro cursor
  rcases pages cursor with ⟨past, same⟩ | ⟨full, position, items, page, same, next⟩
  · rw [same]
    exact ⟨0, rfl, .inl ⟨rfl, past⟩⟩
  · have total : (list.drop cursor).length = list.length - cursor := length_drop
    unfold nextCursor at next
    rcases few_or_split found positive (list.drop cursor) with few |
      ⟨before, entry, after, split, matching, count⟩
    · cases page.symm.trans (fill_few few cursor)
      refine ⟨(list.drop cursor).length, same.trans (by rw [take_length]), ?_⟩
      grind
    · rw [split] at page total
      rw [length_append, length_cons] at total
      cases page.symm.trans (fill_full matching count cursor)
      refine ⟨before.length + 1, same.trans (by simp [split, take_append, take_of_length_le]), ?_⟩
      grind

/-- Pages of one entry that end too early have no more than so many entries. -/
theorem length_scanAll_le {total : Nat} {items : List α}
    (past : ∀ cursor, total ≤ cursor → scan cursor = (0, []))
    (pages : ∀ cursor < total, (scan cursor).2.length ≤ 1 ∧
      ((scan cursor).1 = 0 ∨ cursor < (scan cursor).1))
    (collected : scanAll scan calls cursor = some items) : items.length ≤ total - cursor := by
  induction calls generalizing cursor items with
  | zero => cases collected
  | succ calls ih =>
    by_cases inside : cursor < total
    · obtain ⟨one, last | grows⟩ := pages cursor inside
      · rw [scanAll_last last] at collected
        cases collected
        omega
      · rw [scanAll_next (by omega)] at collected
        obtain ⟨rest, behind, same⟩ := Option.map_eq_some_iff.mp collected
        have fewer := ih behind
        rw [← same, length_append]
        omega
    · have ended := past cursor (by omega)
      rw [scanAll_last (by rw [ended]), ended] at collected
      cases collected
      exact Nat.zero_le _

end Wedb
