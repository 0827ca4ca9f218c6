/-
The operations that look for matching elements. The removal goes page by page with the quota that is
left, from the head by a counter and from the tail by a bitmap.
-/

import Wedb.PagedEdits

namespace Wedb.Object

open List

namespace ListObject

variable (value : Bytes)

@[simp] theorem removeFirst_zero (items : List Bytes) : removeFirst value 0 items = items := by
  rw [removeFirst]

variable (quota : Nat)

@[simp] theorem removeFirst_nil : removeFirst value quota [] = [] := by
  cases quota <;> rfl

theorem removeFirst_cons_self (items : List Bytes) :
    removeFirst value (quota + 1) (value :: items) = removeFirst value quota items := by
  rw [removeFirst, if_pos rfl]

theorem removeFirst_cons_of_ne {value item : Bytes} (other : item ≠ value) (quota : Nat)
    (items : List Bytes) :
    removeFirst value quota (item :: items) = item :: removeFirst value quota items := by
  cases quota with
  | zero => rw [removeFirst_zero, removeFirst_zero]
  | succ quota => rw [removeFirst, if_neg other]

theorem length_removeFirst (items : List Bytes) :
    (removeFirst value quota items).length + min quota (items.count value) = items.length := by
  induction items generalizing quota with
  | nil => rw [removeFirst_nil, count_nil, Nat.min_zero, Nat.add_zero]
  | cons item items ih =>
    obtain rfl | other := eq_or_ne item value
    · cases quota with
      | zero => rw [removeFirst_zero, Nat.zero_min, Nat.add_zero]
      | succ quota =>
        rw [removeFirst_cons_self, count_cons_self, length_cons, ← ih quota,
          Nat.add_min_add_right, Nat.add_assoc]
    · rw [removeFirst_cons_of_ne other, count_cons_of_ne other, length_cons,
        length_cons, ← ih quota, Nat.add_right_comm]

theorem removeFirst_append (front back : List Bytes) : removeFirst value quota (front ++ back) =
      removeFirst value quota front ++ removeFirst value (quota - front.count value) back := by
  induction front generalizing quota with
  | nil => rw [removeFirst_nil, count_nil, Nat.sub_zero, nil_append, nil_append]
  | cons item front ih =>
    obtain rfl | other := eq_or_ne item value
    · cases quota with
      | zero => rw [removeFirst_zero, removeFirst_zero, Nat.zero_sub, removeFirst_zero]
      | succ quota =>
        rw [cons_append, removeFirst_cons_self, removeFirst_cons_self, count_cons_self,
          Nat.add_sub_add_right, ih]
    · rw [cons_append, removeFirst_cons_of_ne other, removeFirst_cons_of_ne other,
        count_cons_of_ne other, ih, cons_append]

variable {items : List Bytes}

theorem removeFirst_eq_filter {value : Bytes} {quota : Nat} (enough : items.count value ≤ quota) :
    removeFirst value quota items = items.filter (· ≠ value) := by
  induction items generalizing quota with
  | nil => rw [removeFirst_nil, filter_nil]
  | cons item items ih =>
    obtain rfl | other := eq_or_ne item value
    · rw [count_cons_self] at enough
      obtain ⟨rest, rfl⟩ := Nat.exists_eq_add_of_le' (Nat.one_le_of_lt enough)
      rw [removeFirst_cons_self, filter_cons_of_neg (by simp), ih (Nat.le_of_succ_le_succ enough)]
    · rw [count_cons_of_ne other] at enough
      rw [removeFirst_cons_of_ne other, filter_cons_of_pos (by simpa using other), ih enough]

theorem length_filter_ne (items : List Bytes) :
    (items.filter (· ≠ value)).length + items.count value = items.length := by
  rw [← removeFirst_eq_filter (Nat.le_refl (items.count value)),
    ← length_removeFirst value (items.count value) items, Nat.min_self]

theorem removeFirst_of_none {value : Bytes} {quota : Nat}
    (nothing : min quota (items.count value) = 0) : removeFirst value quota items = items := by
  rcases Nat.min_eq_zero_iff.mp nothing with rfl | absent
  · exact removeFirst_zero value items
  · rw [removeFirst_eq_filter (absent.le.trans (Nat.zero_le _)), filter_eq_self]
    exact fun item member =>
      decide_eq_true fun same => count_eq_zero.mp absent (same ▸ member)

end ListObject

/-- The elements that stay: the first matches go for a positive count, the last for a negative one,
all for zero. -/
def Sequence.withoutMatches (count : Int) (value : Bytes) (items : List Bytes) : List Bytes :=
  if count = 0 then items.filter (· ≠ value)
  else if 0 < count then ListObject.removeFirst value count.toNat items
  else (ListObject.removeFirst value count.natAbs items.reverse).reverse

namespace PagedList

open Chunks ListObject Sequence

variable (val : Bytes)

theorem removeFromPageHead_loop {quota : Nat} (page : Page) (removed : Nat) (kept : Page)
    (within : removed ≤ quota) :
    page.foldl (fun (removed, kept) item =>
        if removed < quota ∧ item = val then (removed + 1, kept) else (removed, kept ++ [item]))
        (removed, kept) =
      (removed + min (quota - removed) (page.count val),
        kept ++ removeFirst val (quota - removed) page) := by
  induction page generalizing removed kept with
  | nil => simp
  | cons item page ih =>
    rw [foldl_cons]
    dsimp only
    split_ifs with hit
    · obtain ⟨open', rfl⟩ := hit
      obtain ⟨left, rest⟩ := Nat.exists_eq_add_of_le' (Nat.sub_pos_of_lt open')
      rw [ih (removed + 1) kept open', rest, removeFirst_cons_self, count_cons_self,
        Nat.add_min_add_right, ← Nat.sub_sub, rest, Nat.add_sub_cancel, Nat.add_assoc removed,
        Nat.add_comm 1]
    · rw [ih removed (kept ++ [item]) within, append_assoc, singleton_append]
      obtain rfl | other := eq_or_ne item val
      · have used : quota - removed = 0 := by
          by_contra some
          exact hit ⟨Nat.lt_of_sub_pos (Nat.pos_of_ne_zero some), rfl⟩
        rw [used, removeFirst_zero, removeFirst_zero, Nat.zero_min, Nat.zero_min]
      · rw [removeFirst_cons_of_ne other, count_cons_of_ne other]

variable (quota : Nat)

theorem removeFromPageHead_eq (val : Bytes) (page : Page) : removeFromPageHead quota val page =
      (min quota (page.count val), removeFirst val quota page) := by
  rw [removeFromPageHead, removeFromPageHead_loop val page 0 [] (Nat.zero_le _), Nat.zero_add,
    Nat.sub_zero, nil_append]

variable (mask : BitVec 64)

theorem and_one_eq_zero : mask &&& 1#64 = 0#64 ↔ mask.getLsbD 0 = false := by
  constructor
  · intro clear
    have bit := congrArg (·.getLsbD 0) clear
    simpa using bit
  · intro clear
    refine BitVec.eq_of_getLsbD_eq fun bit _ => ?_
    rw [BitVec.getLsbD_and, BitVec.getLsbD_one, BitVec.getLsbD_zero]
    by_cases first : bit = 0
    · rw [first, clear, Bool.false_and]
    · rw [decide_eq_false first, Bool.and_false, Bool.and_false]

theorem retainUnmarked_cons (item : Bytes) (page : Page) : retainUnmarked mask (item :: page) =
      (if mask.getLsbD 0 then [] else [item]) ++ retainUnmarked (mask >>> 1) page := by
  rw [retainUnmarked]
  cases bit : mask.getLsbD 0 with
  | false => rw [if_pos ((and_one_eq_zero mask).mpr bit), if_neg Bool.false_ne_true]; rfl
  | true =>
    rw [if_neg (mt (and_one_eq_zero mask).mp (by rw [bit]; exact Bool.true_eq_false_eq_False)),
      if_pos rfl]
    rfl

theorem retainUnmarked_concat (page : Page) (item : Bytes) : retainUnmarked mask (page ++ [item]) =
      retainUnmarked mask page ++ if mask.getLsbD page.length then [] else [item] := by
  induction page generalizing mask with
  | nil =>
    rw [nil_append, retainUnmarked_cons, retainUnmarked, retainUnmarked, append_nil,
      nil_append, length_nil]
  | cons first page ih =>
    rw [cons_append, retainUnmarked_cons, retainUnmarked_cons, ih, length_cons,
      append_assoc, BitVec.getLsbD_ushiftRight, Nat.add_comm 1]

variable {page : Page} {mask : BitVec 64}

theorem retainUnmarked_of_clear
    (clear : ∀ bit < page.length, mask.getLsbD bit = false) : retainUnmarked mask page = page := by
  induction page using List.reverseRecOn with
  | nil => rfl
  | append_singleton page item ih =>
    rw [length_append, length_singleton] at clear
    rw [retainUnmarked_concat, ih fun bit below => clear bit (Nat.lt_succ_of_lt below),
      clear _ (Nat.lt_succ_self _), if_neg Bool.false_ne_true]

theorem markTail_concat (removed : Nat) (page : Page) (item : Bytes) :
    markTail val quota mask removed (page ++ [item]).zipIdx.reverse =
      if quota = 0 then (mask, removed)
      else if item = val then
        markTail val (quota - 1) (mask ||| 1#64 <<< page.length) (removed + 1) page.zipIdx.reverse
      else markTail val quota mask removed page.zipIdx.reverse := by
  rw [zipIdx_append, zipIdx_cons, zipIdx_nil, reverse_concat, Nat.zero_add, markTail]

theorem getLsbD_mark {offset bit : Nat} (inside : offset < 64) :
    (mask ||| 1#64 <<< offset).getLsbD bit = (mask.getLsbD bit || decide (bit = offset)) := by
  rw [BitVec.getLsbD_or, BitVec.getLsbD_shiftLeft, BitVec.getLsbD_one]
  congr 1
  rw [Bool.eq_iff_iff]
  simp only [Bool.and_eq_true, Bool.not_eq_true', decide_eq_true_eq, decide_eq_false_iff_not]
  omega

theorem markTail_eq (page : Page) (quota : Nat) (mask : BitVec 64) (removed : Nat)
    (fits : page.length ≤ 64) (clear : ∀ bit < page.length, mask.getLsbD bit = false) :
    (markTail val quota mask removed page.zipIdx.reverse).2 = removed + min quota (page.count val) ∧
      (∀ bit, page.length ≤ bit →
        (markTail val quota mask removed page.zipIdx.reverse).1.getLsbD bit = mask.getLsbD bit) ∧
      retainUnmarked (markTail val quota mask removed page.zipIdx.reverse).1 page =
        (removeFirst val quota page.reverse).reverse := by
  induction page using List.reverseRecOn generalizing quota mask removed with
  | nil =>
    refine ⟨?_, fun _ _ => rfl, ?_⟩
    · rw [count_nil, Nat.min_zero]
      rfl
    · rw [reverse_nil, removeFirst_nil]
      rfl
  | append_singleton page item ih =>
    rw [length_append, length_singleton] at fits clear
    have below : ∀ bit < page.length, mask.getLsbD bit = false :=
      fun bit small => clear bit (Nat.lt_succ_of_lt small)
    have atEnd := clear _ (Nat.lt_succ_self _)
    rw [reverse_concat, length_append, length_singleton, retainUnmarked_concat,
      count_append, count_singleton]
    cases quota with
    | zero =>
      rw [markTail_concat, if_pos rfl, removeFirst_zero, reverse_cons, reverse_reverse,
        Nat.zero_min, retainUnmarked_of_clear below, atEnd, if_neg Bool.false_ne_true]
      exact ⟨rfl, fun _ _ => rfl, rfl⟩
    | succ quota =>
      rw [markTail_concat, if_neg (Nat.succ_ne_zero _), Nat.add_sub_cancel]
      obtain rfl | other := eq_or_ne item val
      · -- The last element is a match: it is marked, and one less is left to remove.
        obtain ⟨count, outside, kept⟩ := ih quota (mask ||| 1#64 <<< page.length) (removed + 1)
          (Nat.le_of_succ_le fits) fun bit small => by
            rw [getLsbD_mark fits, below bit small, decide_eq_false small.ne, Bool.or_false]
        rw [if_pos rfl, beq_self_eq_true, if_pos rfl, count, kept, outside _ (Nat.le_refl _),
          getLsbD_mark fits, decide_eq_true rfl, Bool.or_true, if_pos rfl, append_nil,
          removeFirst_cons_self]
        refine ⟨by omega, fun bit large => ?_, rfl⟩
        rw [outside bit (Nat.le_of_succ_le large), getLsbD_mark fits,
          decide_eq_false (Nat.ne_of_gt large), Bool.or_false]
      · obtain ⟨count, outside, kept⟩ := ih (quota + 1) mask removed (Nat.le_of_succ_le fits) below
        rw [if_neg other, if_neg (mt beq_iff_eq.mp other), count, kept,
          outside _ (Nat.le_refl _), atEnd, if_neg Bool.false_ne_true,
          removeFirst_cons_of_ne other, reverse_cons, Nat.add_zero]
        exact ⟨rfl, fun bit large => outside bit (Nat.le_of_succ_le large), rfl⟩

theorem removeFromPageTail_eq (val : Bytes) (fits : page.length ≤ defaultPageCapacity) :
    removeFromPageTail quota val page =
      (min quota (page.count val), (removeFirst val quota page.reverse).reverse) := by
  obtain ⟨count, -, kept⟩ := markTail_eq val page quota 0#64 0 fits fun bit _ => BitVec.getLsbD_zero
  rw [Nat.zero_add] at count
  rw [removeFromPageTail]
  dsimp only
  rw [count, kept]
  split_ifs with some
  · rfl
  · -- Nothing was marked, and nothing is to be removed.
    rw [removeFirst_of_none (by rw [count_reverse]; exact Nat.eq_zero_of_not_pos some),
      reverse_reverse]

theorem removeByPage_eq {fromPage : Nat → Page → Nat × Page} {view : Page → List Bytes}
    {val : Bytes}
    (inPage : ∀ quota page, page.length ≤ defaultPageCapacity →
      (fromPage quota page).1 = min quota ((view page).count val) ∧
        view (fromPage quota page).2 = removeFirst val quota (view page) ∧
        (fromPage quota page).2.length ≤ defaultPageCapacity)
    (pages : List Page) (fits : ∀ page ∈ pages, page.length ≤ defaultPageCapacity)
    (quota removed : Nat) :
    (removeByPage fromPage quota removed pages).1 =
        removed + min quota ((pages.map view).flatten.count val) ∧
      (((removeByPage fromPage quota removed pages).2.map view).flatten =
        removeFirst val quota (pages.map view).flatten) ∧
      ∀ page ∈ (removeByPage fromPage quota removed pages).2,
        page.length ≤ defaultPageCapacity := by
  induction pages generalizing quota removed with
  | nil =>
    rw [map_nil, flatten_nil, count_nil, Nat.min_zero, removeFirst_nil]
    exact ⟨rfl, rfl, fits⟩
  | cons page rest ih =>
    rw [removeByPage]
    split_ifs with used
    · subst used
      rw [removeFirst_zero, Nat.zero_min]
      exact ⟨rfl, rfl, fits⟩
    · rw [forall_mem_cons] at fits
      obtain ⟨here, kept, small⟩ := inPage quota page fits.1
      have left : quota - (fromPage quota page).1 = quota - (view page).count val := by
        rw [here]
        omega
      obtain ⟨count, others, smalls⟩ := ih fits.2 (quota - (view page).count val)
        (removed + (fromPage quota page).1)
      dsimp only
      rw [left, count, here, map_cons, map_cons, flatten_cons, flatten_cons,
        kept, count_append, removeFirst_append]
      rw [here] at others smalls
      refine ⟨by omega, by rw [others], forall_mem_cons.mpr ⟨small, smalls⟩⟩

theorem retainNotEq_loop (pages : List Page) (removed : Nat) (kept : List Page) :
    pages.foldl (fun (removed, kept) page =>
        (removed + (page.length - (page.filter (· ≠ val)).length),
          kept ++ [page.filter (· ≠ val)])) (removed, kept) =
      (removed + pages.flatten.count val, kept ++ pages.map (·.filter (· ≠ val))) := by
  induction pages generalizing removed kept with
  | nil => rw [foldl_nil, flatten_nil, count_nil, map_nil, append_nil, Nat.add_zero]
  | cons page rest ih =>
    have matched : page.length - (page.filter (· ≠ val)).length = page.count val := by
      rw [← length_filter_ne val page, Nat.add_sub_cancel_left]
    rw [foldl_cons]
    rw [ih, matched, flatten_cons, count_append, map_cons, Nat.add_assoc,
      append_assoc, singleton_append]

theorem retainNotEq_eq (pages : List Page) :
    retainNotEq val pages = (pages.flatten.count val, pages.map (·.filter (· ≠ val))) := by
  rw [retainNotEq, retainNotEq_loop val pages 0 [], Nat.zero_add, nil_append]

variable {items : List Bytes} {list : PagedList}

theorem reclaimPage_spec {merged : List Page}
    (sized : Sized defaultPageCapacity merged) (fits : page.length ≤ defaultPageCapacity) :
    Sized defaultPageCapacity (reclaimPage merged page) ∧
      (reclaimPage merged page).flatten = merged.flatten ++ page := by
  have kept (some : page ≠ []) : Sized defaultPageCapacity (merged ++ [page]) ∧
      (merged ++ [page]).flatten = merged.flatten ++ page :=
    ⟨sized_append.mpr ⟨sized, sized_cons.mpr ⟨⟨some, fits⟩, sized_nil _⟩⟩, flatten_concat⟩
  unfold reclaimPage
  split_ifs with empty
  · rw [isEmpty_iff.mp empty, append_nil]
    exact ⟨sized, rfl⟩
  · have some : page ≠ [] := fun none => empty (isEmpty_iff.mpr none)
    split
    · next head last =>
      split_ifs with sparse
      · have pages := dropLast_append_getLast? head last
        have room : head.length + page.length ≤ defaultPageCapacity :=
          sparse.trans (Nat.div_le_self _ _)
        rw [Page.tryMerge, if_pos room]
        rw [← pages, sized_append] at sized
        refine ⟨sized_append.mpr ⟨sized.1, sized_cons.mpr ⟨⟨?_, ?_⟩, sized_nil _⟩⟩, ?_⟩
        · exact append_ne_nil_of_right_ne_nil _ some
        · rw [length_append]
          exact room
        · dsimp only
          rw [flatten_concat, ← append_assoc, ← flatten_concat, pages]
      · exact kept some
    · exact kept some

theorem represents_reclaim (fits : ∀ page ∈ list.pages, page.length ≤ defaultPageCapacity)
    (content : list.pages.flatten = items) (length : list.len = items.length) :
    Represents list.reclaim items := by
  have loop (pages merged : List Page) (sized : Sized defaultPageCapacity merged)
      (fits : ∀ page ∈ pages, page.length ≤ defaultPageCapacity) :
      Sized defaultPageCapacity (pages.foldl reclaimPage merged) ∧
        (pages.foldl reclaimPage merged).flatten = merged.flatten ++ pages.flatten := by
    induction pages generalizing merged with
    | nil => exact ⟨sized, (append_nil _).symm⟩
    | cons page rest ih =>
      rw [forall_mem_cons] at fits
      obtain ⟨sizes, joined⟩ := reclaimPage_spec sized fits.1
      obtain ⟨sizes, whole⟩ := ih _ sizes fits.2
      refine ⟨sizes, ?_⟩
      rw [foldl_cons, whole, joined, flatten_cons, append_assoc]
  obtain ⟨sizes, whole⟩ := loop list.pages [] (sized_nil _) fits
  exact represents_clearPhysical (represents_of_len sizes (whole.trans content) length)

theorem removeFromPageHead_inPage (page : Page) (fits : page.length ≤ defaultPageCapacity) :
    (removeFromPageHead quota val page).1 = min quota ((id page).count val) ∧
      id (removeFromPageHead quota val page).2 = removeFirst val quota (id page) ∧
      (removeFromPageHead quota val page).2.length ≤ defaultPageCapacity := by
  rw [removeFromPageHead_eq]
  refine ⟨rfl, rfl, le_trans ?_ fits⟩
  exact Nat.le.intro (length_removeFirst val quota page)

theorem removeFromPageTail_inPage (page : Page) (fits : page.length ≤ defaultPageCapacity) :
    (removeFromPageTail quota val page).1 = min quota (page.reverse.count val) ∧
      (removeFromPageTail quota val page).2.reverse = removeFirst val quota page.reverse ∧
      (removeFromPageTail quota val page).2.length ≤ defaultPageCapacity := by
  rw [removeFromPageTail_eq quota val fits, count_reverse]
  refine ⟨rfl, reverse_reverse _, le_trans ?_ fits⟩
  have total := length_removeFirst val quota page.reverse
  rw [length_reverse] at total ⊢
  exact Nat.le.intro total

theorem removeMatches_spec (count : Int) (val : Bytes) (holds : Represents list items) :
    (list.removeMatches count val).2.flatten = withoutMatches count val items ∧
      (∀ page ∈ (list.removeMatches count val).2, page.length ≤ defaultPageCapacity) ∧
      (list.removeMatches count val).1 + (withoutMatches count val items).length =
        items.length := by
  have fits : ∀ page ∈ list.pages, page.length ≤ defaultPageCapacity :=
    fun page member => (holds.sized page member).2
  have all : (retainNotEq val list.pages).2.flatten = items.filter (· ≠ val) ∧
      (∀ page ∈ (retainNotEq val list.pages).2, page.length ≤ defaultPageCapacity) ∧
      (retainNotEq val list.pages).1 + (items.filter (· ≠ val)).length = items.length := by
    rw [retainNotEq_eq, ← filter_flatten, holds.content, Nat.add_comm]
    refine ⟨rfl, fun page member => ?_, length_filter_ne val items⟩
    obtain ⟨whole, listed, rfl⟩ := mem_map.mp member
    exact (length_filter_le _ _).trans (fits whole listed)
  unfold removeMatches withoutMatches
  split_ifs with zero positive beyond
  · exact all
  · obtain ⟨removed, kept, small⟩ := removeByPage_eq (removeFromPageHead_inPage val) list.pages
      fits count.toNat 0
    rw [map_id, map_id, holds.content] at kept
    rw [map_id, holds.content, Nat.zero_add] at removed
    refine ⟨kept, small, ?_⟩
    rw [removed, Nat.add_comm]
    exact length_removeFirst val count.toNat items
  · have every : removeFirst val count.natAbs items.reverse = items.reverse.filter (· ≠ val) := by
      refine removeFirst_eq_filter ?_
      rw [count_reverse]
      exact count_le_length.trans (holds.len ▸ beyond)
    rw [every, filter_reverse, reverse_reverse]
    exact all
  · obtain ⟨removed, kept, small⟩ := removeByPage_eq (removeFromPageTail_inPage val)
      list.pages.reverse (fun page member => fits page (mem_reverse.mp member))
      count.natAbs 0
    have backwards (pages : List Page) :
        (pages.reverse.map List.reverse).flatten = pages.flatten.reverse := by
      rw [map_reverse, reverse_flatten]
    rw [backwards, holds.content, Nat.zero_add] at removed
    rw [backwards, holds.content] at kept
    dsimp only
    refine ⟨?_, fun page member => small page (mem_reverse.mp member), ?_⟩
    · rw [← kept, ← reverse_reverse (removeByPage _ _ _ _).2, backwards,
        reverse_reverse, reverse_reverse]
    · have total := length_removeFirst val count.natAbs items.reverse
      rw [length_reverse] at total
      rw [removed, length_reverse, Nat.add_comm, total]

theorem represents_lrem (count : Int) (val : Bytes) (holds : Represents list items) :
    (list.lrem count val).1 = items.length - (withoutMatches count val items).length ∧
      Represents (list.lrem count val).2 (withoutMatches count val items) := by
  obtain ⟨content, fits, total⟩ := removeMatches_spec count val holds
  rw [lrem]
  split_ifs with empty
  · obtain rfl : items = [] := eq_nil_of_length_eq_zero (by rw [← holds.len, empty])
    have nothing : withoutMatches count val [] = [] :=
      eq_nil_of_length_eq_zero (Nat.eq_zero_of_add_eq_zero_left total)
    rw [nothing]
    exact ⟨rfl, holds⟩
  · refine ⟨by dsimp only; omega, represents_reclaim fits content ?_⟩
    dsimp only
    rw [holds.len]
    omega

/-- The first or last matches go, or all; the others stay in pages of the right size, and the answer
counts those gone. -/
theorem lrem_removes (count : Int) (val : Bytes) (holds : Represents list items) :
    (list.lrem count val).1 = (if count = 0 then items.count val
        else min count.natAbs (items.count val)) ∧
      Represents (list.lrem count val).2 (withoutMatches count val items) := by
  obtain ⟨removed, remains⟩ := represents_lrem count val holds
  refine ⟨?_, remains⟩
  have all := length_filter_ne val items
  have first := length_removeFirst val count.natAbs items
  have last := length_removeFirst val count.natAbs items.reverse
  rw [count_reverse, length_reverse] at last
  rw [removed, withoutMatches]
  split_ifs with zero positive
  · omega
  · rw [← Int.natAbs_of_nonneg positive.le, Int.toNat_natCast]
    omega
  · rw [length_reverse]
    omega

theorem lrem_removes_last : (lrem (-1) [1] ⟨[[[1], [2]], [[1]]], 3⟩).1 = 1 :=
  (lrem_removes (-1) [1] represents_twoPages).1

theorem findPivot_cases (pivot : Bytes) (pages : List Page) (pi : Nat) :
    (findPivot pivot pi pages = none ∧ pivot ∉ pages.flatten) ∨
      ∃ before front back after, pages = before ++ (front ++ pivot :: back) :: after ∧
        findPivot pivot pi pages = some (pi + before.length, front.length) ∧
        pivot ∉ before.flatten ++ front := by
  induction pages generalizing pi with
  | nil => exact .inl ⟨rfl, not_mem_nil⟩
  | cons page rest ih =>
    rw [findPivot]
    cases search : page.findIdx? (· = pivot) with
    | some offset =>
      obtain ⟨inside, found, first⟩ := findIdx?_eq_some_iff_getElem.mp search
      have split : page = page.take offset ++ pivot :: page.drop (offset + 1) := by
        rw [← of_decide_eq_true found, ← drop_eq_getElem_cons inside, take_append_drop]
      refine .inr ⟨[], page.take offset, page.drop (offset + 1), rest,
        congrArg (· :: rest) split, ?_, fun member => ?_⟩
      · rw [length_take_of_le inside.le]
        rfl
      · obtain ⟨position, bound, same⟩ := mem_take_iff_getElem.mp member
        exact first position (lt_min_iff.mp bound).1 (decide_eq_true same)
    | none =>
      have absent : pivot ∉ page := fun member =>
        of_decide_eq_false (findIdx?_eq_none_iff.mp search pivot member) rfl
      rcases ih (pi + 1) with ⟨nowhere, none⟩ | ⟨before, front, back, after, rfl, located, first⟩
      · refine .inl ⟨nowhere, fun member => ?_⟩
        exact (mem_append.mp member).elim absent none
      · refine .inr ⟨page :: before, front, back, after, rfl, ?_, fun member => ?_⟩
        · dsimp only
          rw [located, length_cons, Nat.add_right_comm, Nat.add_assoc]
        · rw [flatten_cons, append_assoc] at member
          exact (mem_append.mp member).elim absent first

theorem linsert_append {pivot : Bytes} {front : List Bytes} (position : InsertPosition)
    (back : List Bytes) (first : pivot ∉ front) :
    ListObject.linsert pivot val position (front ++ pivot :: back) =
      some (front ++ match position with
        | .before => val :: pivot :: back
        | .after => pivot :: val :: back) := by
  induction front with
  | nil =>
    cases position <;> simp only [nil_append, ListObject.linsert, if_true]
  | cons item front ih =>
    rw [mem_cons, not_or] at first
    simp only [cons_append, ListObject.linsert, if_neg (Ne.symm first.1), ih first.2,
      Option.map_some]

theorem linsert_eq_none {pivot : Bytes} (position : InsertPosition) (absent : pivot ∉ items)
    : ListObject.linsert pivot val position items = none := by
  induction items with
  | nil => rfl
  | cons item items ih =>
    rw [mem_cons, not_or] at absent
    simp only [ListObject.linsert, if_neg (Ne.symm absent.1), ih absent.2, Option.map_none]

theorem represents_linsert (pivot val : Bytes) (position : InsertPosition)
    (holds : Represents list items) :
    match ListObject.linsert pivot val position items with
    | none => list.linsert pivot val position = (-1, list)
    | some inserted => (list.linsert pivot val position).1 = inserted.length ∧
        Represents (list.linsert pivot val position).2 inserted := by
  rcases findPivot_cases pivot list.pages 0 with
    ⟨nowhere, absent⟩ | ⟨before, front, back, after, pages, located, first⟩
  · rw [holds.content] at absent
    rw [linsert_eq_none val position absent]
    rw [linsert, nowhere]
  · have content : items = (before.flatten ++ front) ++ pivot :: (back ++ after.flatten) := by
      rw [← holds.content, pages, flatten_middle]
      simp only [append_assoc, cons_append]
    rw [content, linsert_append val position _ first]
    rw [Nat.zero_add] at located
    -- The place of the new element splits the page in front of it and behind it.
    have insertAt left right (halves : left ++ right = front ++ pivot :: back) :
        Represents (list.insertIntoPage before.length left.length val)
          (before.flatten ++ (left ++ val :: right) ++ after.flatten) := by
      rw [← halves] at pages
      refine represents_insertIntoPage ?_ pages
      rwa [append_assoc, ← flatten_middle, ← pages, holds.content]
    simp only [linsert, located]
    cases position with
    | before =>
      have inserted := insertAt front (pivot :: back) rfl
      simp only [append_assoc, cons_append] at inserted ⊢
      exact ⟨congrArg Nat.cast inserted.len, inserted⟩
    | after =>
      have inserted := insertAt (front ++ [pivot]) back (append_assoc _ _ _)
      rw [length_append, length_singleton] at inserted
      simp only [append_assoc, cons_append, nil_append] at inserted ⊢
      exact ⟨congrArg Nat.cast inserted.len, inserted⟩

end PagedList

end Wedb.Object
