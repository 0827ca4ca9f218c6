/-
The byte strings the server works on and the machine arithmetic of a sixty-four bit release build:
`usize` values are natural numbers below `2 ^ 64`, additions wrap, and slices panic.
-/

import Mathlib.Algebra.Order.Ring.Int
import Mathlib.Data.List.Basic
import Mathlib.Tactic.Common

namespace Wedb

/-- A byte string: a key, a value, an argument or a piece of the stream. -/
abbrev Bytes := List UInt8

instance Bytes.decidableForallMem (condition : UInt8 → Prop) [DecidablePred condition]
    (bytes : Bytes) : Decidable (∀ byte ∈ bytes, condition byte) :=
  List.decidableBAll condition bytes

def bytesOf (text : String) : Bytes :=
  text.toList.flatMap String.utf8EncodeChar

def toAsciiUppercase (byte : UInt8) : UInt8 :=
  if 97 ≤ byte ∧ byte ≤ 122 then byte - 32 else byte

def isAsciiLowercase (byte : UInt8) : Bool :=
  decide (97 ≤ byte ∧ byte ≤ 122)

/-- `<[u8]>::eq_ignore_ascii_case`. -/
def eqIgnoreAsciiCase (left right : Bytes) : Bool :=
  left.map toAsciiUppercase == right.map toAsciiUppercase

def isAsciiDigit (byte : UInt8) : Bool :=
  decide (48 ≤ byte ∧ byte ≤ 57)

/-- `usize::MAX + 1` on a sixty-four bit target. -/
def usizeRange : Nat := 2 ^ 64

/-- The cast `value as usize` of a sixty-four bit signed integer. -/
def usizeOfInt (value : Int) : Nat := (value % usizeRange).toNat

/-- The addition of two `usize` values in a release build. -/
def wrappingAdd (left right : Nat) : Nat := (left + right) % usizeRange

/-- The values of an `i64`. -/
def IsInt64 (value : Int) : Prop := -2 ^ 63 ≤ value ∧ value < 2 ^ 63

theorem usizeOfInt_of_nonneg {value : Int} (range : IsInt64 value) (nonneg : 0 ≤ value) :
    usizeOfInt value = value.toNat := by
  obtain ⟨lower, upper⟩ := range
  simp only [usizeOfInt, usizeRange]
  omega

theorem usizeOfInt_of_neg {value : Int} (range : IsInt64 value) (negative : value < 0) :
    usizeOfInt value = 2 ^ 64 - value.natAbs := by
  obtain ⟨lower, upper⟩ := range
  simp only [usizeOfInt, usizeRange]
  omega

/-- The slice `&items[first..=last]`, or nothing where indexing panics. -/
def sliceInclusive {α : Type} (items : List α) (first last : Nat) : Option (List α) :=
  if last + 1 < usizeRange ∧ first ≤ last + 1 ∧ last + 1 ≤ items.length then
    some ((items.drop first).take (last + 1 - first))
  else none

theorem sliceInclusive_eq_some {α : Type} {items : List α} {first last : Nat}
    (fits : last + 1 < usizeRange) (ordered : first ≤ last + 1)
    (inside : last + 1 ≤ items.length) :
    sliceInclusive items first last = some ((items.drop first).take (last + 1 - first)) :=
  if_pos ⟨fits, ordered, inside⟩

theorem map_modify_of_keeps {α β : Type} {view : α → β} (items : List α) (index : Nat)
    (change : α → α) (keeps : ∀ item, view (change item) = view item) :
    (items.modify index change).map view = items.map view := by
  refine List.ext_getElem? fun other => ?_
  rw [List.getElem?_map, List.getElem?_map, List.getElem?_modify, Option.map_eq_map, Option.map_map]
  refine congrArg (fun seen => Option.map seen items[other]?) (funext fun item => ?_)
  split_ifs
  · exact keeps item
  · rfl

end Wedb
