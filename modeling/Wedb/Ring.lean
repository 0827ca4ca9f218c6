/-
A small theory of ring buffers. A ring is read backwards: the cell at distance one behind the head
was written last.
-/

import Mathlib.Data.List.Basic
import Mathlib.Tactic.Common

namespace Ring

open List

variable {α : Type}

def overwrite (cells : List α) (start : Nat) (data : List α) : List α :=
  cells.take start ++ data ++ cells.drop (start + data.length)

variable {cells : List α} {start size position steps count : Nat} {data : List α}

theorem length_overwrite (fits : start + data.length ≤ cells.length) :
    (overwrite cells start data).length = cells.length := by
  rw [overwrite, length_append, length_append, length_take, length_drop]
  omega

theorem getElem?_overwrite (fits : start + data.length ≤ cells.length) (position : Nat) :
    (overwrite cells start data)[position]? =
      if start ≤ position ∧ position < start + data.length then data[position - start]?
      else cells[position]? := by
  have front : (cells.take start).length = start := by rw [length_take]; omega
  rw [overwrite, append_assoc, getElem?_append, front, getElem?_append]
  by_cases before : position < start
  · rw [if_pos before, getElem?_take_of_lt before, if_neg (by omega)]
  by_cases inside : position < start + data.length
  · rw [if_neg before, if_pos (by omega), if_pos (by omega)]
  · rw [if_neg before, if_neg (by omega), if_neg (by omega), getElem?_drop]
    congr 1
    omega

theorem step_mod (inside : position < size) (few : steps < size) :
    (position + steps) % size =
      if position + steps < size then position + steps else position + steps - size := by
  split
  · exact Nat.mod_eq_of_lt (by assumption)
  · rw [Nat.mod_eq_sub_mod (by omega), Nat.mod_eq_of_lt (by omega)]

def behind (cells : List α) (head distance : Nat) : Option α :=
  cells[(head + cells.length - distance) % cells.length]?

def write (cells : List α) (head : Nat) (data : List α) : List α × Nat :=
  let spaceToEnd := cells.length - head
  if data.length ≤ spaceToEnd then
    (overwrite cells head data,
      if head + data.length = cells.length then 0 else head + data.length)
  else
    (overwrite (overwrite cells head (data.take spaceToEnd)) 0 (data.drop spaceToEnd),
      data.length - spaceToEnd)

section Write

variable {cells : List α} {head : Nat} {data : List α} (inside : head < cells.length)
  (short : data.length < cells.length)

include inside short

theorem length_write : (write cells head data).1.length = cells.length := by
  unfold write
  dsimp only
  split
  · exact length_overwrite (by omega)
  · have front : (overwrite cells head (data.take (cells.length - head))).length =
        cells.length := length_overwrite (by rw [length_take]; omega)
    rw [length_overwrite (by rw [front, length_drop]; omega), front]

theorem write_head : (write cells head data).2 = (head + data.length) % cells.length := by
  rw [step_mod inside short]
  unfold write
  dsimp only
  split
  · dsimp only
    split <;> split <;> omega
  · rw [if_neg (by omega)]
    omega

theorem getElem?_write {steps : Nat} (few : steps < cells.length) :
    (write cells head data).1[(head + steps) % cells.length]? =
      if steps < data.length then data[steps]?
      else cells[(head + steps) % cells.length]? := by
  rw [step_mod inside few]
  by_cases fits : data.length ≤ cells.length - head
  · rw [write, if_pos fits]
    rw [getElem?_overwrite (by omega)]
    by_cases written : steps < data.length
    · rw [if_pos written, if_pos (show head + steps < cells.length by omega),
        if_pos ⟨by omega, by omega⟩, Nat.add_sub_cancel_left]
    · rw [if_neg written, if_neg (by split <;> omega)]
  · have front : (overwrite cells head (data.take (cells.length - head))).length =
        cells.length := length_overwrite (by rw [length_take]; omega)
    rw [write, if_neg fits]
    rw [getElem?_overwrite (by rw [front, length_drop]; omega), length_drop,
      getElem?_overwrite (by rw [length_take]; omega), length_take]
    by_cases straight : head + steps < cells.length
    · rw [if_pos straight, if_neg (by omega), if_pos (by omega), if_pos (by omega),
        getElem?_take_of_lt (by omega), Nat.add_sub_cancel_left]
    · rw [if_neg straight]
      by_cases written : steps < data.length
      · rw [if_pos written, if_pos ⟨by omega, by omega⟩, getElem?_drop]
        congr 1
        omega
      · rw [if_neg written, if_neg (by omega), if_neg (by omega)]

theorem behind_write {distance : Nat} (positive : 0 < distance) (near : distance ≤ cells.length) :
    behind (write cells head data).1 (write cells head data).2 distance =
      if distance ≤ data.length then data[data.length - distance]?
      else behind cells head (distance - data.length) := by
  have size := length_write inside short
  have index : ((write cells head data).2 + cells.length - distance) % cells.length =
      (head + data.length + (cells.length - distance)) % cells.length := by
    rw [write_head inside short, Nat.add_sub_assoc near, Nat.mod_add_mod]
  rw [behind, size, index]
  by_cases recent : distance ≤ data.length
  · rw [if_pos recent, show head + data.length + (cells.length - distance) =
      head + (data.length - distance) + cells.length by omega, Nat.add_mod_right,
      getElem?_write inside short (by omega), if_pos (by omega)]
  · rw [if_neg recent, Nat.add_assoc, getElem?_write inside short (by omega),
      if_neg (by omega), behind]
    congr 2
    omega

end Write

def pieces (cells : List α) (start count : Nat) : List α × List α :=
  if count ≤ cells.length - start then ((cells.drop start).take count, [])
  else (cells.drop start, cells.take (count - (cells.length - start)))

theorem getElem?_pieces (inside : start < cells.length)
    (few : count ≤ cells.length) (valid : steps < count) :
    ((pieces cells start count).1 ++ (pieces cells start count).2)[steps]? =
      cells[(start + steps) % cells.length]? := by
  rw [step_mod inside (by omega)]
  by_cases straight : count ≤ cells.length - start
  · rw [pieces, if_pos straight, append_nil, getElem?_take_of_lt valid,
      getElem?_drop, if_pos (by omega)]
  · rw [pieces, if_neg straight]
    rw [getElem?_append, length_drop]
    by_cases early : steps < cells.length - start
    · rw [if_pos early, getElem?_drop, if_pos (by omega)]
    · rw [if_neg early, getElem?_take_of_lt (by omega), if_neg (by omega)]
      congr 1
      omega

theorem length_pieces (few : count ≤ cells.length) :
    ((pieces cells start count).1 ++ (pieces cells start count).2).length = count := by
  unfold pieces
  split
  · rw [append_nil, length_take, length_drop]
    omega
  · rw [length_append, length_drop, length_take]
    omega

end Ring
