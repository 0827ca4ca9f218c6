/-
Tables keyed by string constants. A spelling of a table has the letters of each key, so that a
search through the table becomes a computation on letters.
-/

import Mathlib.Data.List.Induction
import Wedb.Text

namespace Wedb

/-- A table, and the same table with each key letter by letter. -/
inductive Spells {α : Type} : List (String × α) → List (Text × α) → Prop
  | nil : Spells [] []
  | cons {table : List (String × α)} {spelled : List (Text × α)} (letters : Text) (value : α) :
    Spells table spelled →
      Spells ((String.ofList letters, value) :: table) ((letters, value) :: spelled)

inductive SpellsList : List String → List Text → Prop
  | nil : SpellsList [] []
  | cons {strings : List String} {spelled : List Text} (letters : Text) :
    SpellsList strings spelled → SpellsList (String.ofList letters :: strings) (letters :: spelled)

theorem SpellsList.eq_map {strings : List String} {spelled : List Text}
    (spells : SpellsList strings spelled) : strings = spelled.map String.ofList := by
  induction spells with
  | nil => rfl
  | cons letters _ ih => rw [ih, List.map_cons]

def numberOf (bytes : Bytes) : Nat :=
  bytes.foldl (fun number byte => number * 256 + byte.toNat) 1

theorem numberOf_concat (bytes : Bytes) (byte : UInt8) :
    numberOf (bytes ++ [byte]) = numberOf bytes * 256 + byte.toNat := by
  simp [numberOf]

theorem numberOf_pos (bytes : Bytes) : 0 < numberOf bytes := by
  induction bytes using List.reverseRecOn with
  | nil => decide
  | append_singleton bytes byte ih =>
    rw [numberOf_concat]
    omega

theorem numberOf_injective {first second : Bytes} (same : numberOf first = numberOf second) :
    first = second := by
  induction first using List.reverseRecOn generalizing second with
  | nil =>
    cases second using List.reverseRecOn with
    | nil => rfl
    | append_singleton front last =>
      have positive := numberOf_pos front
      rw [numberOf_concat] at same
      simp only [numberOf, List.foldl_nil] at same positive
      omega
  | append_singleton bytes byte ih =>
    have small := byte.toNat_lt
    cases second using List.reverseRecOn with
    | nil =>
      have positive := numberOf_pos bytes
      rw [numberOf_concat] at same
      simp only [numberOf, List.foldl_nil] at same positive
      omega
    | append_singleton front last =>
      have smallLast := last.toNat_lt
      rw [numberOf_concat, numberOf_concat] at same
      have sameFront : numberOf bytes = numberOf front := by omega
      have sameLast : byte.toNat = last.toNat := by omega
      rw [ih sameFront, UInt8.toNat_inj.mp sameLast]

def lookupSpelled {α : Type} (spelled : List (Text × α)) (key : Bytes) : Option α :=
  (spelled.find? fun entry => Nat.beq (numberOf entry.1.bytes) (numberOf key)).map Prod.snd

namespace Spells

variable {α : Type} {table : List (String × α)} {spelled : List (Text × α)}

theorem eq_map (spells : Spells table spelled) :
    table = spelled.map fun entry => (String.ofList entry.1, entry.2) := by
  induction spells with
  | nil => rfl
  | cons letters value _ ih => rw [ih, List.map_cons]

theorem find_eq (spells : Spells table spelled) (key : Bytes) :
    (table.find? fun entry => bytesOf entry.1 == key).map Prod.snd = lookupSpelled spelled key := by
  have agree : ((fun entry => bytesOf entry.1 == key) ∘
      fun entry : Text × α => (String.ofList entry.1, entry.2)) =
      fun entry => Nat.beq (numberOf entry.1.bytes) (numberOf key) := by
    funext entry
    have letters : bytesOf (String.ofList entry.1) = entry.1.bytes := by
      simp [bytesOf, Text.bytes]
    rw [Function.comp_apply, letters, Bool.eq_iff_iff, Nat.beq_eq, beq_iff_eq]
    exact ⟨congrArg numberOf, numberOf_injective⟩
  rw [spells.eq_map, List.find?_map, agree, Option.map_map]
  rfl

theorem forall_mem {property : Text → α → Prop} (spells : Spells table spelled)
    (holds : ∀ entry ∈ spelled, property entry.1 entry.2) :
    ∀ entry ∈ table, property entry.1.toList entry.2 := by
  rw [spells.eq_map]
  intro entry inside
  obtain ⟨source, inSpelled, rfl⟩ := List.mem_map.mp inside
  simpa using holds source inSpelled

end Spells

end Wedb
