/-
The text functions of the standard library that the access control module calls on a `str`, a list
of characters here.
-/

import Mathlib.Data.Char
import Mathlib.Data.List.Basic
import Mathlib.Tactic.IntervalCases
import Wedb.Bytes

namespace Wedb

open List

/-- A `str`. -/
abbrev Text := List Char

namespace Text

instance lawfulBEq : LawfulBEq Text := inferInstance

instance decidableForallMem (condition : Char → Prop) [DecidablePred condition] (text : Text) :
    Decidable (∀ character ∈ text, condition character) :=
  List.decidableBAll condition text

variable (text : Text)

/-- `str::as_bytes`. -/
def bytes : Bytes := text.flatMap String.utf8EncodeChar

def isWhitespace (character : Char) : Bool :=
  let code := character.toNat
  decide (9 ≤ code ∧ code ≤ 13) || code == 0x20 || code == 0x85 || code == 0xA0 ||
    code == 0x1680 || decide (0x2000 ≤ code ∧ code ≤ 0x200A) || code == 0x2028 ||
    code == 0x2029 || code == 0x202F || code == 0x205F || code == 0x3000

def trim : Text :=
  ((text.dropWhile isWhitespace).reverse.dropWhile isWhitespace).reverse

/-- `str::split_whitespace`. -/
def words : List Text :=
  (text.splitOnP isWhitespace).filter (· ≠ [])

def toAsciiUppercase : Text := text.map Char.toUpper

def toAsciiLowercase : Text := text.map Char.toLower

def eqIgnoreAsciiCase (left right : Text) : Bool :=
  left.toAsciiLowercase == right.toAsciiLowercase

def Solid : Prop := ∀ character ∈ text, isWhitespace character = false

instance (text : Text) : Decidable text.Solid :=
  inferInstanceAs (Decidable (∀ character ∈ text, isWhitespace character = false))

theorem Solid.append {left right : Text} (solidLeft : left.Solid) (solidRight : right.Solid) :
    (left ++ right).Solid := by
  intro character inside
  rcases mem_append.mp inside with inLeft | inRight
  · exact solidLeft character inLeft
  · exact solidRight character inRight

@[simp] theorem words_nil : words [] = [] := rfl

theorem words_append_space (before after : Text) :
    words (before ++ ' ' :: after) = words before ++ words after := by
  have space : isWhitespace ' ' := rfl
  unfold words
  rw [splitOnP_append_cons before after space, filter_append]

@[simp] theorem words_space (after : Text) : words (' ' :: after) = words after :=
  words_append_space [] after

theorem words_of_solid {word : Text} (solid : word.Solid) (nonempty : word ≠ []) :
    words word = [word] := by
  have single : word.splitOnP isWhitespace = [word] := splitOnP_eq_singleton solid
  simp [words, single, nonempty]

variable (text : Text)

theorem solid_of_mem_splitOnP : ∀ piece ∈ text.splitOnP isWhitespace, Solid piece := by
  induction text with
  | nil => simp [Solid]
  | cons character rest ih =>
    rw [splitOnP_cons_eq_if_modifyHead]
    split
    case isTrue space =>
      intro piece inside
      rcases mem_cons.mp inside with rfl | later
      · simp [Solid]
      · exact ih piece later
    case isFalse ink =>
      obtain ⟨front, others, pieces⟩ := exists_cons_of_ne_nil (splitOnP_ne_nil isWhitespace rest)
      rw [pieces] at ih ⊢
      intro piece inside
      rcases mem_cons.mp inside with rfl | later
      · intro letter inPiece
        rcases mem_cons.mp inPiece with rfl | inFront
        · simpa using ink
        · exact ih front mem_cons_self letter inFront
      · exact ih piece (mem_cons_of_mem front later)

theorem solid_of_mem_words {text word : Text} (inside : word ∈ words text) :
    word.Solid ∧ word ≠ [] := by
  obtain ⟨inSplit, nonempty⟩ := mem_filter.mp inside
  exact ⟨solid_of_mem_splitOnP text word inSplit, by simpa using nonempty⟩

theorem words_flatMap_space (texts : List Text) :
    words (texts.flatMap (' ' :: ·)) = texts.flatMap words := by
  induction texts with
  | nil => rfl
  | cons text rest ih =>
    rw [flatMap_cons, flatMap_cons, ← ih]
    cases rest with
    | nil => simp
    | cons next others =>
      have spaced := words_append_space (' ' :: text) (next ++ others.flatMap (' ' :: ·))
      simpa using spaced

theorem flatMap_words_words : (words text).flatMap words = words text := by
  have same : ∀ word ∈ words text, words word = [word] := fun word inside =>
    words_of_solid (solid_of_mem_words inside).1 (solid_of_mem_words inside).2
  rw [flatMap_congr same]
  simp

theorem trim_of_solid {text : Text} (solid : text.Solid) : text.trim = text := by
  have keep : ∀ piece : Text, piece.Solid → piece.dropWhile isWhitespace = piece := by
    intro piece whole
    cases piece with
    | nil => rfl
    | cons first rest => simp [whole first mem_cons_self]
  unfold trim
  have backwards : Solid text.reverse := fun letter inside => solid letter (by simpa using inside)
  rw [keep text solid, keep text.reverse backwards, reverse_reverse]

variable (character : Char)

theorem toLower_eq_or_mem :
    character.toLower = character ∨ character ∈ "ABCDEFGHIJKLMNOPQRSTUVWXYZ".toList := by
  by_cases capital : character.val ≥ 'A'.val ∧ character.val ≤ 'Z'.val
  · right
    obtain ⟨lower, upper⟩ := capital
    have least : 65 ≤ character.toNat := lower
    have greatest : character.toNat ≤ 90 := upper
    have self : Char.ofNat character.toNat = character := Char.ofNat_toNat character
    rw [← self]
    generalize character.toNat = code at *
    interval_cases code <;> decide
  · left
    exact dif_neg capital

theorem forall_toLower (relation : Char → Char → Prop)
    (same : ∀ character, relation character character)
    (letters : ∀ letter ∈ "ABCDEFGHIJKLMNOPQRSTUVWXYZ".toList, relation letter letter.toLower)
    (character : Char) : relation character character.toLower := by
  rcases toLower_eq_or_mem character with fixed | letter
  · rw [fixed]
    exact same character
  · exact letters character letter

theorem toUpper_toLower : character.toLower.toUpper = character.toUpper :=
  forall_toLower (fun left right => right.toUpper = left.toUpper) (fun _ => rfl) (by decide)
    character

theorem toLower_toLower : character.toLower.toLower = character.toLower :=
  forall_toLower (fun left right => right.toLower = left.toLower) (fun _ => rfl) (by decide)
    character

@[simp] theorem toAsciiUppercase_toAsciiLowercase :
    text.toAsciiLowercase.toAsciiUppercase = text.toAsciiUppercase := by
  simp only [toAsciiUppercase, toAsciiLowercase, map_map, Function.comp_def, toUpper_toLower]

@[simp] theorem toAsciiLowercase_toAsciiLowercase :
    text.toAsciiLowercase.toAsciiLowercase = text.toAsciiLowercase := by
  simp only [toAsciiLowercase, map_map, Function.comp_def, toLower_toLower]

@[simp] theorem eqIgnoreAsciiCase_toAsciiLowercase (left right : Text) :
    eqIgnoreAsciiCase left.toAsciiLowercase right = eqIgnoreAsciiCase left right := by
  simp [eqIgnoreAsciiCase]

theorem bytes_toAsciiLowercase : text.toAsciiLowercase.bytes.map Wedb.toAsciiUppercase =
      text.bytes.map Wedb.toAsciiUppercase := by
  induction text with
  | nil => rfl
  | cons character rest ih =>
    have first := forall_toLower (fun left right =>
      (String.utf8EncodeChar right).map Wedb.toAsciiUppercase =
        (String.utf8EncodeChar left).map Wedb.toAsciiUppercase) (fun _ => rfl) (by decide)
      character
    simp only [bytes, toAsciiLowercase, map_cons, flatMap_cons, map_append] at ih first ⊢
    rw [first, ih]

end Text

end Wedb
