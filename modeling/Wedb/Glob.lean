/-
Glob patterns. The loop of `glob_match` is the matcher that remembers its last star.
-/

import Wedb.Bytes
import Wedb.Wildcard

namespace Wedb.Glob

open Wildcard

def hexVal (byte : UInt8) : Option UInt8 :=
  if 48 ≤ byte ∧ byte ≤ 57 then some (byte - 48)
  else if 97 ≤ byte ∧ byte ≤ 102 then some (byte - 97 + 10)
  else if 65 ≤ byte ∧ byte ≤ 70 then some (byte - 65 + 10)
  else none

def parseHexByte (high low : UInt8) : Option UInt8 := do
  return (← hexVal high) <<< 4 ||| (← hexVal low)

/-- `next_pat_char` at the front of a pattern: the byte meant, and how many it is written with. -/
def nextPatChar : Bytes → Option (UInt8 × Nat)
  | [] => none
  | 92 :: rest =>
    match rest with
    | 120 :: high :: low :: _ =>
      match parseHexByte high low with
      | some byte => some (byte, 4)
      | none => some (120, 2)
    | byte :: _ => some (byte, 2)
    | [] => some (92, 1)
  | byte :: _ => some (byte, 1)

def toAsciiLowercase (byte : UInt8) : UInt8 :=
  if 65 ≤ byte ∧ byte ≤ 90 then byte + 32 else byte

theorem nextPatChar_used {pat : Bytes} {byte : UInt8} {used : Nat}
    (read : nextPatChar pat = some (byte, used)) : 0 < used ∧ pat ≠ [] := by
  unfold nextPatChar at read
  grind

variable (ignoreCase : Bool)

def fold (byte : UInt8) : UInt8 := if ignoreCase then toAsciiLowercase byte else byte

/-- The end of a range, if there is a dash and no closing bracket behind it. -/
def rangeEnd : Bytes → Option (UInt8 × Nat)
  | 45 :: next :: rest => if next = 93 then none else nextPatChar (next :: rest)
  | _ => none

/-- A byte or a range of bytes in a bracket, and how many bytes it is written with. -/
def bracketItem (pat : Bytes) : Option ((UInt8 → Bool) × Nat) := do
  let (first, used) ← nextPatChar pat
  let first := fold ignoreCase first
  match rangeEnd (pat.drop used) with
  | some (last, taken) =>
    let last := fold ignoreCase last
    return (fun target => min first last ≤ target ∧ target ≤ max first last, used + 1 + taken)
  | none => return ((first == ·), used)

theorem bracketItem_used {pat : Bytes} {holds : UInt8 → Bool} {used : Nat}
    (read : bracketItem ignoreCase pat = some (holds, used)) : 0 < used ∧ pat ≠ [] := by
  unfold bracketItem at read
  cases first : nextPatChar pat with
  | none => simp [first] at read
  | some found =>
    have positive := nextPatChar_used first
    simp only [first, Option.bind_eq_bind, Option.bind_some] at read
    split at read <;> cases read
    · exact ⟨by omega, positive.2⟩
    · exact positive

/-- The loop of `match_bracket` from an offset on; nothing for a bracket that is left open. -/
def bracketLoop (target : UInt8) (pat : Bytes) (offset : Nat) (matched : Bool) :
    Option (Bool × Nat) :=
  match pat with
  | [] => none
  | 93 :: _ => some (matched, offset + 1)
  | pat =>
    match _read : bracketItem ignoreCase pat with
    | none => none
    | some (holds, used) =>
      bracketLoop target (pat.drop used) (offset + used) (matched || holds target)
  termination_by pat.length
  decreasing_by
    obtain ⟨positive, some⟩ := bracketItem_used ignoreCase _read
    have := List.length_pos_iff.mpr some
    rw [List.length_drop]
    omega

/-- `match_bracket`: whether the byte is matched, and the bytes of a closed bracket. -/
def matchBracket (pat : Bytes) (byte : UInt8) : Bool × Nat :=
  match pat with
  | 91 :: rest =>
    let negated := decide (rest.head? = some 94 ∨ rest.head? = some 33)
    let start := if negated then 2 else 1
    match bracketLoop ignoreCase (fold ignoreCase byte) (pat.drop start) start false with
    | some (matched, used) => (matched != negated, used)
    | none => (false, 0)
  | _ => (false, 0)

/-- What stands for one byte at the front of a pattern: whether it matches, and the bytes used. -/
def element (pattern : Bytes) (byte : UInt8) : Bool × Nat :=
  match pattern with
  | [] => (false, 1)
  | 63 :: _ => (true, 1)
  | 91 :: _ =>
    let (matched, used) := matchBracket ignoreCase pattern byte
    if 0 < used then (matched, used) else (byte == 91, 1)
  | 92 :: _ =>
    match nextPatChar pattern with
    | some (literal, used) => (fold ignoreCase literal == fold ignoreCase byte, used)
    | none => (false, 1)
  | literal :: _ => (fold ignoreCase literal == fold ignoreCase byte, 1)

/-- The loop of `glob_match`, with what stands behind the last star in pattern and key. -/
def globLoop (pattern key : Bytes) (star : Option (Bytes × Bytes)) : Bool :=
  match key with
  | [] => (pattern.dropWhile (· == 42)).isEmpty
  | byte :: rest =>
    match pattern with
    | 42 :: stars =>
      let after := stars.dropWhile (· == 42)
      globLoop after (byte :: rest) (some (after, byte :: rest))
    | pattern =>
      let (matched, used) := element ignoreCase pattern byte
      if matched then globLoop (pattern.drop used) rest star
      else
        match star with
        | some (after, _ :: ahead) => globLoop after ahead (some (after, ahead))
        | _ => false
  termination_by
    (star.elim (key.length + 1) fun behind => max behind.2.length key.length,
      key.length + pattern.length)
  decreasing_by
    · have fewer := (List.dropWhile_suffix (l := stars) (· == 42)).length_le
      cases star <;> simp only [Prod.lex_def, Option.elim, List.length_cons] <;> omega
    · cases star <;> simp only [Prod.lex_def, Option.elim, List.length_cons] <;> grind
    · simp only [Prod.lex_def, Option.elim, List.length_cons]
      omega

/-- `glob_match`. -/
def globMatch (pattern key : Bytes) : Bool := globLoop ignoreCase pattern key none

theorem element_pos (pattern : Bytes) (byte : UInt8) : 0 < (element ignoreCase pattern byte).2 := by
  unfold element
  split
  · exact Nat.one_pos
  · exact Nat.one_pos
  · dsimp only
    split
    · assumption
    · exact Nat.one_pos
  · split
    · exact (nextPatChar_used ‹_›).1
    · exact Nat.one_pos
  · exact Nat.one_pos

/-- The pattern as a list of stars and of tests. How it is cut does not depend on the bytes. -/
def tokens (pattern : Bytes) : List (Token UInt8) :=
  match pattern with
  | [] => []
  | 42 :: rest => none :: tokens rest
  | first :: rest =>
    some (fun byte => (element ignoreCase (first :: rest) byte).1) ::
      tokens ((first :: rest).drop (element ignoreCase (first :: rest) 0).2)
  termination_by pattern.length
  decreasing_by
    · exact Nat.lt_succ_self _
    · have positive := element_pos ignoreCase (first :: rest) 0
      rw [List.length_drop, List.length_cons]
      omega

variable {ignoreCase}

/-- What a bracket takes of the pattern does not depend on the byte. -/
theorem bracketLoop_used (target other : UInt8) (pat : Bytes) (offset : Nat) (first second : Bool) :
    (bracketLoop ignoreCase target pat offset first).map Prod.snd =
      (bracketLoop ignoreCase other pat offset second).map Prod.snd := by
  fun_induction bracketLoop ignoreCase target pat offset first generalizing second with
  | case1 => simp [bracketLoop]
  | case2 => simp [bracketLoop]
  | case3 offset matched pat nonempty notClosed unread =>
    conv_rhs => rw [bracketLoop.eq_def]
    grind
  | case4 offset matched pat nonempty notClosed holds used read ih =>
    conv_rhs => rw [bracketLoop.eq_def]
    grind

theorem matchBracket_used (pat : Bytes) (byte other : UInt8) :
    (matchBracket ignoreCase pat byte).2 = (matchBracket ignoreCase pat other).2 := by
  unfold matchBracket
  split
  · rename_i rest
    have same := @bracketLoop_used ignoreCase (fold ignoreCase byte) (fold ignoreCase other)
    dsimp only
    grind
  · rfl

theorem element_used (pattern : Bytes) (byte other : UInt8) :
    (element ignoreCase pattern byte).2 = (element ignoreCase pattern other).2 := by
  unfold element
  split
  · rfl
  · rfl
  · dsimp only
    rw [matchBracket_used _ byte other]
    split <;> rfl
  · split <;> rfl
  · rfl

variable {pattern key : Bytes} {byte : UInt8}

theorem tokens_eq (byte : UInt8) (plain : ∀ stars, pattern ≠ 42 :: stars) (some : pattern ≠ []) :
    tokens ignoreCase pattern = .some (fun byte => (element ignoreCase pattern byte).1) ::
      tokens ignoreCase (pattern.drop (element ignoreCase pattern byte).2) := by
  rw [tokens.eq_def]
  split
  · exact absurd rfl some
  · exact absurd rfl (plain _)
  · rw [element_used _ 0 byte]

theorem matches_dropStars (rest : Bytes) : Matches (none :: tokens ignoreCase rest) key ↔
    Matches (none :: tokens ignoreCase (rest.dropWhile (· == 42))) key := by
  induction rest with
  | nil => rfl
  | cons first rest ih =>
    rw [List.dropWhile_cons]
    split
    · rename_i star
      rw [eq_of_beq star, tokens, matches_stars]
      exact ih
    · rfl

theorem matches_nil_iff : Matches (tokens ignoreCase pattern) [] ↔
    (pattern.dropWhile (· == 42)).isEmpty := by
  induction pattern with
  | nil => simpa [tokens] using Matches.nil
  | cons first rest ih =>
    rw [List.dropWhile_cons]
    split
    · rename_i star
      rw [eq_of_beq star, tokens, matches_star_nil]
      exact ih
    · rename_i plain
      have other stars : first :: rest ≠ 42 :: stars := fun same =>
        plain (beq_iff_eq.mpr (List.cons.inj same).1)
      rw [tokens_eq 0 other (List.cons_ne_nil first rest)]
      refine iff_of_false ?_ (by simp)
      rintro ⟨⟩

theorem not_matches (plain : ∀ stars, pattern ≠ 42 :: stars) {matched : Bool} {used : Nat}
    (read : element ignoreCase pattern byte = (matched, used)) (rejected : ¬matched) (key : Bytes) :
    ¬Matches (tokens ignoreCase pattern) (byte :: key) := by
  by_cases empty : pattern = []
  · rw [empty, tokens]
    rintro ⟨⟩
  · rw [tokens_eq byte plain empty, matches_one_iff, read]
    exact fun both => rejected both.1

theorem globLoop_iff (star : Option (Bytes × Bytes))
    (trails : ∀ after ahead, star = some (after, ahead) →
      Trails (tokens ignoreCase after) ahead (tokens ignoreCase pattern) key) :
    globLoop ignoreCase pattern key star ↔
      star.elim (Matches (tokens ignoreCase pattern) key) fun behind =>
        Matches (none :: tokens ignoreCase behind.1) behind.2 := by
  fun_induction globLoop ignoreCase pattern key star with
  | case1 pattern star =>
    cases star with
    | none => exact matches_nil_iff.symm
    | some behind => exact matches_nil_iff.symm.trans (trails _ _ rfl).finish.symm
  | case2 star byte rest stars after ih =>
    have here : Matches (none :: tokens ignoreCase after) (byte :: rest) ↔
        Matches (tokens ignoreCase (42 :: stars)) (byte :: rest) := by
      rw [tokens]
      exact (matches_dropStars stars).symm
    refine (ih fun _ _ same => ?_).trans (here.trans ?_)
    · cases same
      exact .start
    · cases star with
      | none => rfl
      | some behind =>
        rw [tokens] at trails ⊢
        exact (trails _ _ rfl).star.symm
  | case3 star byte rest pattern plain used read ih =>
    have some : pattern ≠ [] := by
      rintro rfl
      cases read
    have passes : (element ignoreCase pattern byte).1 := congrArg Prod.fst read
    rw [tokens_eq byte plain some, read] at trails ⊢
    refine (ih fun after ahead same => (trails after ahead same).one passes).trans ?_
    cases star with
    | none => exact ⟨.one passes, fun matched => (matches_one_iff.mp matched).2⟩
    | some behind => rfl
  | case4 byte rest pattern plain matched used read rejected after skipped ahead ih =>
    have back := (trails _ _ rfl).back (not_matches plain read rejected rest)
    refine (ih fun _ _ same => ?_).trans back.symm
    cases same
    exact .start
  | case5 star byte rest pattern plain matched used read rejected noStar =>
    refine iff_of_false Bool.false_ne_true ?_
    rcases star with _ | ⟨after, _ | ⟨skipped, ahead⟩⟩
    · exact not_matches plain read rejected rest
    · exact absurd (trails _ _ rfl).shorter (Nat.not_succ_le_zero _)
    · exact absurd rfl (noStar after skipped ahead)

/-- `glob_match` accepts exactly the keys in the language of the pattern: a star stands for any
bytes, and everything else for one byte that it tests. -/
theorem globMatch_iff (pattern key : Bytes) (ignoreCase : Bool) :
    globMatch ignoreCase pattern key ↔ Matches (tokens ignoreCase pattern) key :=
  globLoop_iff none fun _ _ wrong => by cases wrong

end Wedb.Glob
