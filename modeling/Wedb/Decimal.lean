/-
The decimal text of an integer reads back as the integer, so two integer replies agree exactly when
the integers do.
-/

import Wedb.RespWrite
import Wedb.Utf8

namespace Wedb

open Resp List

theorem digitsValue_append_singleton (digits : Bytes) (digit : UInt8) :
    digitsValue (digits ++ [digit]) = digitsValue digits * 10 + (digit.toNat - 48) := by
  simp [digitsValue]

variable (number : Nat)

theorem toNat_digit : (UInt8.ofNat (48 + number % 10)).toNat = 48 + number % 10 := by
  rw [UInt8.toNat_ofNat']
  omega

theorem isAsciiDigit_digit : isAsciiDigit (UInt8.ofNat (48 + number % 10)) := by
  have value := toNat_digit number
  simp only [isAsciiDigit, decide_eq_true_eq, UInt8.le_iff_toNat_le, value, UInt8.reduceToNat]
  omega

theorem prependDigits_spec (fuel number : Nat) (rest : Bytes) (enough : number < fuel) :
    ∃ digits, prependDigits fuel number rest = digits ++ rest ∧ digits ≠ [] ∧
      digits.all isAsciiDigit ∧ digitsValue digits = number := by
  induction fuel generalizing number rest with
  | zero => exact absurd enough (Nat.not_lt_zero _)
  | succ fuel ih =>
    have digit := isAsciiDigit_digit number
    have digitValue := toNat_digit number
    unfold prependDigits
    generalize UInt8.ofNat (48 + number % 10) = last at digit digitValue ⊢
    by_cases single : number / 10 = 0
    · refine ⟨[last], ?_, by simp, by simp [digit], ?_⟩
      · rw [if_pos single]
        rfl
      · have value := digitsValue_append_singleton [] last
        rw [nil_append, digitValue] at value
        rw [value]
        simp only [digitsValue, foldl_nil]
        omega
    · obtain ⟨digits, written, -, digital, value⟩ :=
        ih (number / 10) (last :: rest) (by omega)
      refine ⟨digits ++ [last], ?_, by simp, by simp [digital, digit], ?_⟩
      · rw [if_neg single, written]
        simp
      · rw [digitsValue_append_singleton, value, digitValue]
        omega

theorem formatNat_spec : formatNat number ≠ [] ∧
    (formatNat number).all isAsciiDigit ∧ digitsValue (formatNat number) = number := by
  obtain ⟨digits, written, nonempty, digital, value⟩ :=
    prependDigits_spec (number + 1) number [] (Nat.lt_succ_self _)
  rw [append_nil] at written
  rw [formatNat, written]
  exact ⟨nonempty, digital, value⟩

theorem parseDigits_formatNat : parseDigits (formatNat number) = some number := by
  obtain ⟨nonempty, digital, value⟩ := formatNat_spec number
  rw [parseDigits, if_pos ⟨nonempty, digital⟩, value]

theorem formatNat_injective {first second : Nat} (same : formatNat first = formatNat second) :
    first = second := by
  have parsed := parseDigits_formatNat first
  rw [same, parseDigits_formatNat] at parsed
  exact (Option.some.inj parsed).symm

def isPlain (byte : UInt8) : Bool := decide (byte < 0x80) && !isWhitespace [byte]

variable {byte first : UInt8}

theorem isPlain_of_digit (digit : isAsciiDigit byte) : isPlain byte := by
  simp only [isAsciiDigit, decide_eq_true_eq, UInt8.le_iff_toNat_le, UInt8.reduceToNat] at digit
  have small : byte < 0x80 := UInt8.lt_iff_toNat_lt.mpr (by simp only [UInt8.reduceToNat]; omega)
  have notControl : ¬(9 ≤ byte ∧ byte ≤ 13) := by
    simp only [UInt8.le_iff_toNat_le, UInt8.reduceToNat]
    omega
  have notSpace : byte ≠ 32 := by
    intro space
    rw [space] at digit
    exact absurd digit.1 (by decide)
  have visible : isWhitespace [byte] = false := by
    rw [isWhitespace_single, decide_eq_false notControl, Bool.false_or, beq_eq_false_iff_ne]
    exact notSpace
  rw [isPlain, visible, decide_eq_true small]
  rfl

theorem sequences_plain (bytes : Bytes) (plain : bytes.all isPlain) :
    sequences bytes.length bytes = bytes.map fun byte => ([byte], true) := by
  induction bytes with
  | nil => rfl
  | cons first rest ih =>
    rw [all_cons, Bool.and_eq_true] at plain
    have small : first < 0x80 := by
      have both := plain.1
      rw [isPlain, Bool.and_eq_true] at both
      exact of_decide_eq_true both.1
    have front : frontSequence (first :: rest) = (1, true) := by
      simp [frontSequence, sequenceLength, small]
    rw [length_cons, sequences, front]
    · simp [ih plain.2]
    · intro impossible
      cases impossible

variable {bytes digits character : Bytes}

theorem utf8Valid_plain (plain : bytes.all isPlain) : utf8Valid bytes := by
  rw [utf8Valid, sequences_plain bytes plain]
  simp

theorem trim_plain (plain : bytes.all isPlain) : trim bytes = bytes := by
  have kept : ∀ kept : Bytes, kept.all isPlain →
      (kept.map fun byte => [byte]).dropWhile isWhitespace = kept.map fun byte => [byte] := by
    intro kept all
    cases kept with
    | nil => rfl
    | cons first rest =>
      rw [all_cons, Bool.and_eq_true, isPlain, Bool.and_eq_true] at all
      have visible : isWhitespace [first] = false := by simpa using all.1.2
      rw [map_cons, dropWhile_cons_of_neg (by simp [visible])]
  have characters : (sequences bytes.length bytes).map Prod.fst = bytes.map fun byte => [byte] := by
    rw [sequences_plain bytes plain, map_map]
    rfl
  have backwards : bytes.reverse.all isPlain := by rw [all_reverse, plain]
  unfold trim
  simp only [characters]
  rw [kept bytes plain, ← map_reverse, kept _ backwards, ← map_reverse,
    reverse_reverse, ← flatMap_def, flatMap_singleton']

theorem all_isPlain_formatNat : (formatNat number).all isPlain := by
  have digital := (formatNat_spec number).2.1
  rw [all_eq_true] at digital ⊢
  exact fun byte member => isPlain_of_digit (digital byte member)

variable (value : Int)

theorem all_isPlain_formatInt : (formatInt value).all isPlain := by
  unfold formatInt
  split
  · rw [all_cons, all_isPlain_formatNat]
    decide
  · exact all_isPlain_formatNat _

theorem parseInt64_digits (digital : digits.all isAsciiDigit) :
    parseInt64 digits = (parseDigits digits).bind fun magnitude => asInt64 magnitude := by
  unfold parseInt64
  split
  · simp [isAsciiDigit] at digital
  · simp [isAsciiDigit] at digital
  · rfl

theorem parseInt64_formatInt : parseInt64 (formatInt value) = asInt64 value := by
  unfold formatInt
  by_cases negative : value < 0
  · rw [if_pos negative]
    show (parseDigits (formatNat value.natAbs)).bind _ = _
    rw [parseDigits_formatNat, Option.bind_some]
    congr 1
    omega
  · rw [if_neg negative, parseInt64_digits (formatNat_spec _).2.1, parseDigits_formatNat,
      Option.bind_some]
    congr 1
    omega

theorem parseStoredInteger_formatInt : parseStoredInteger (formatInt value) = asInt64 value := by
  have plain := all_isPlain_formatInt value
  rw [parseStoredInteger, if_pos (utf8Valid_plain plain), trim_plain plain, parseInt64_formatInt]

theorem asInt64_eq_some_iff {value other : Int} :
    asInt64 value = some other ↔ IsInt64 value ∧ value = other := by
  unfold asInt64
  split_ifs with range
  · exact ⟨fun same => ⟨range, Option.some.inj same⟩, fun fits => congrArg some fits.2⟩
  · exact iff_of_false nofun fun fits => range fits.1

theorem parseInt64_range {value : Int} (parsed : parseInt64 bytes = some value) :
    IsInt64 value := by
  unfold parseInt64 at parsed
  split at parsed <;>
  · obtain ⟨magnitude, -, inside⟩ := Option.bind_eq_some_iff.mp parsed
    obtain ⟨range, rfl⟩ := asInt64_eq_some_iff.mp inside
    exact range

variable {value} in
/-- What is parsed as it stands has no white space to be trimmed. -/
theorem all_isPlain_of_parseInt64 (parsed : parseInt64 bytes = some value) :
    bytes.all isPlain := by
  have digits : ∀ {text : Bytes} {fit : Nat → Option Int},
      (parseDigits text).bind fit = some value → text.all isPlain := by
    intro text fit read
    obtain ⟨magnitude, digital, -⟩ := Option.bind_eq_some_iff.mp read
    unfold parseDigits at digital
    split at digital
    · rename_i all
      rw [all_eq_true]
      exact fun byte member => isPlain_of_digit (all_eq_true.mp all.2 byte member)
    · cases digital
  unfold parseInt64 at parsed
  split at parsed
  · rw [all_cons, digits parsed]
    decide
  · rw [all_cons, digits parsed]
    decide
  · exact digits parsed

theorem parseStoredInteger_of_parseInt64 {value : Int} (parsed : parseInt64 bytes = some value) :
    parseStoredInteger bytes = some value := by
  have plain := all_isPlain_of_parseInt64 parsed
  rw [parseStoredInteger, if_pos (utf8Valid_plain plain), trim_plain plain, parsed]

theorem dropWhile_append_visible (backwards : List Bytes)
    (visible : isWhitespace character = false) :
    ∃ others, (backwards ++ [character]).dropWhile isWhitespace = others ++ [character] := by
  induction backwards with
  | nil => exact ⟨[], by simp [visible]⟩
  | cons last others ih =>
    rw [cons_append, dropWhile_cons]
    split
    · exact ih
    · exact ⟨last :: others, rfl⟩

theorem trim_visible (rest : Bytes) (ascii : first < 0x80)
    (visible : isWhitespace [first] = false) : ∃ tail, trim (first :: rest) = first :: tail := by
  have front : frontSequence (first :: rest) = (1, true) := by
    simp [frontSequence, sequenceLength, ascii]
  have split : sequences (first :: rest).length (first :: rest) =
      ([first], true) :: sequences rest.length rest := by
    rw [length_cons, sequences, front]
    · rfl
    · intro impossible
      cases impossible
  unfold trim
  simp only [split, map_cons, dropWhile_cons, visible]
  rw [if_neg Bool.false_ne_true, reverse_cons]
  obtain ⟨others, kept⟩ :=
    dropWhile_append_visible ((sequences rest.length rest).map Prod.fst).reverse visible
  rw [kept, reverse_append]
  exact ⟨others.reverse.flatten, rfl⟩

theorem parseStoredInteger_control (rest : Bytes) (control : first < 9) :
    parseStoredInteger (first :: rest) = none := by
  have small : first.toNat < 9 := UInt8.lt_iff_toNat_lt.mp control
  have different : ∀ other, 9 ≤ other.toNat → first ≠ other := by
    intro other large same
    rw [same] at small
    omega
  have visible : isWhitespace [first] = false := by
    have notControl : ¬(9 ≤ first ∧ first ≤ 13) := fun inside =>
      absurd (UInt8.le_iff_toNat_le.mp inside.1) (Nat.not_le.mpr small)
    rw [isWhitespace_single, decide_eq_false notControl, Bool.false_or, beq_eq_false_iff_ne]
    exact different 32 (by decide)
  obtain ⟨tail, begins⟩ :=
    trim_visible rest (UInt8.lt_iff_toNat_lt.mpr (by simpa using by omega)) visible
  have digits : parseDigits (first :: tail) = none := by
    have notDigit : isAsciiDigit first = false := by
      simp [isAsciiDigit, UInt8.le_iff_toNat_le]
      omega
    simp [parseDigits, notDigit]
  rw [parseStoredInteger, begins]
  split
  · unfold parseInt64
    split
    · rename_i same
      exact absurd (List.cons.inj same).1 (different 45 (by decide))
    · rename_i same
      exact absurd (List.cons.inj same).1 (different 43 (by decide))
    · rw [digits]
      rfl
  · rfl

theorem writeInteger_natCast_injective {first second : Nat}
    (same : writeInteger first = writeInteger second) : first = second := by
  have texts : formatNat first = formatNat second := by
    have nonneg : ∀ number : Nat, formatInt number = formatNat number := fun number =>
      if_neg (by omega)
    simpa [writeInteger, nonneg] using same
  exact formatNat_injective texts

theorem writeInteger_ne_writeError (text : Bytes) : writeInteger value ≠ writeError text := by
  intro same
  have first := congrArg List.head? same
  simp [writeInteger, writeError] at first

theorem writeError_ne_writeBulkString (text value : Bytes) :
    writeError text ≠ writeBulkString value := by
  intro same
  have first := congrArg List.head? same
  simp [writeError, writeBulkString] at first

theorem writeBulkString_ne_writeNull (value : Bytes) : writeBulkString value ≠ writeNull := by
  intro same
  obtain ⟨nonempty, digital, -⟩ := formatNat_spec value.length
  cases digits : formatNat value.length with
  | nil => exact nonempty digits
  | cons first rest =>
    rw [digits, all_cons, Bool.and_eq_true] at digital
    have second : first = 45 := by
      have tail := congrArg (fun reply => reply.tail.head?) same
      rw [writeBulkString, digits] at tail
      exact Option.some.inj tail
    rw [second] at digital
    exact absurd digital.1 (by decide)

end Wedb
