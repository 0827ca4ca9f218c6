/-
A sequence that is kept in chunks of bounded size. What is read or changed at an offset in a chunk
is what the plain sequence has at an index.
-/

import Mathlib.Data.List.Basic
import Mathlib.Data.List.TakeDrop
import Mathlib.Tactic.Common

namespace Wedb.Chunks

open List

variable {α : Type} {chunk : List α}

def Sized (capacity : Nat) (chunks : List (List α)) : Prop :=
  ∀ chunk ∈ chunks, chunk ≠ [] ∧ chunk.length ≤ capacity

@[simp] theorem sized_nil (capacity : Nat) : Sized capacity ([] : List (List α)) :=
  fun _ member => absurd member not_mem_nil

variable {chunks : List (List α)} {capacity index : Nat}

@[simp] theorem sized_cons : Sized capacity (chunk :: chunks) ↔
      (chunk ≠ [] ∧ chunk.length ≤ capacity) ∧ Sized capacity chunks :=
  forall_mem_cons

@[simp] theorem sized_append {front back : List (List α)} :
    Sized capacity (front ++ back) ↔ Sized capacity front ∧ Sized capacity back :=
  forall_mem_append

variable {before after : List (List α)}

def Place (chunks : List (List α)) (place : Nat × Nat) (index : Nat) : Prop :=
  ∃ before chunk after, chunks = before ++ chunk :: after ∧ place.1 = before.length ∧
    place.2 < chunk.length ∧ index = before.flatten.length + place.2

theorem getElem?_middle : (before ++ chunk :: after)[before.length]? = some chunk := by
  rw [getElem?_append_right (Nat.le_refl _), Nat.sub_self, getElem?_cons_zero]

theorem set_middle {other : List α} :
    (before ++ chunk :: after).set before.length other = before ++ other :: after := by
  rw [set_append_right _ _ (Nat.le_refl _), Nat.sub_self, set_cons_zero]

theorem eraseIdx_middle : (before ++ chunk :: after).eraseIdx before.length = before ++ after := by
  rw [eraseIdx_append_of_length_le (Nat.le_refl _), Nat.sub_self, eraseIdx_cons_zero]

theorem insertIdx_middle (front back : List α) (item : α) :
    (front ++ back).insertIdx front.length item = front ++ item :: back := by
  induction front with
  | nil => exact insertIdx_zero
  | cons first rest ih =>
    rw [cons_append, length_cons, insertIdx_succ_cons, ih, cons_append]

theorem flatten_middle :
    (before ++ chunk :: after).flatten = before.flatten ++ (chunk ++ after.flatten) := by
  rw [flatten_append, flatten_cons]

variable {place : Nat × Nat}

/-- The item at a place is the item of the sequence at the index. -/
theorem Place.read (found : Place chunks place index) :
    ∃ chunk, chunks[place.1]? = some chunk ∧ chunk[place.2]? = chunks.flatten[index]? := by
  obtain ⟨before, chunk, after, rfl, number, inside, rfl⟩ := found
  refine ⟨chunk, by rw [number, getElem?_middle], ?_⟩
  rw [flatten_middle, getElem?_append_right (Nat.le_add_right _ _), Nat.add_sub_cancel_left,
    getElem?_append_left inside]

theorem Place.next (sized : Sized capacity chunks) (found : Place chunks place index)
    (more : index + 1 < chunks.flatten.length) :
    ∃ chunk, chunks[place.1]? = some chunk ∧
      Place chunks (if chunk.length ≤ place.2 + 1 then (place.1 + 1, 0)
        else (place.1, place.2 + 1)) (index + 1) := by
  obtain ⟨before, chunk, after, rfl, number, inside, rfl⟩ := found
  refine ⟨chunk, by rw [number, getElem?_middle], ?_⟩
  rw [flatten_middle, length_append, length_append] at more
  split_ifs with last
  · cases after with
    | nil =>
      rw [flatten_nil, length_nil] at more
      omega
    | cons following rest =>
      have filled : following ≠ [] := by
        simp only [sized_append, sized_cons] at sized
        exact sized.2.2.1.1
      refine ⟨before ++ [chunk], following, rest, by rw [append_assoc]; rfl, ?_,
        length_pos_iff.mpr filled, ?_⟩
      · rw [number, length_append, length_singleton]
      · rw [flatten_append, length_append, flatten_cons, flatten_nil, append_nil]
        omega
  · exact ⟨before, chunk, after, rfl, number, Nat.not_le.mp last, by omega⟩

theorem Place.prev (sized : Sized capacity chunks) (found : Place chunks place (index + 1)) :
    if place.2 = 0 then place.1 ≠ 0 ∧ ∃ chunk, chunks[place.1 - 1]? = some chunk ∧
      Place chunks (place.1 - 1, chunk.length - 1) index
    else Place chunks (place.1, place.2 - 1) index := by
  obtain ⟨before, chunk, after, rfl, number, inside, total⟩ := found
  split_ifs with start
  · rcases eq_nil_or_concat' before with rfl | ⟨before, last, rfl⟩
    · rw [start] at total
      cases total
    · have filled : last ≠ [] := by
        simp only [sized_append, sized_cons] at sized
        exact sized.1.2.1.1
      rw [length_append, length_singleton] at number
      rw [flatten_concat, length_append] at total
      rw [number, append_assoc, singleton_append, Nat.add_sub_cancel, getElem?_middle]
      have some := length_pos_iff.mpr filled
      exact ⟨Nat.succ_ne_zero _, last, rfl, before, last, chunk :: after, rfl, rfl,
        Nat.sub_lt some Nat.one_pos, by dsimp only; omega⟩
  · exact ⟨before, chunk, after, rfl, number, by dsimp only; omega, by dsimp only; omega⟩

end Wedb.Chunks
