/-
Patterns with stars, and the matcher that remembers only its last star. Where it is stuck it goes
back there with one symbol more. Earlier stars need no second try: what stands between two stars
takes as many symbols wherever it matches.
-/

import Mathlib.Tactic.Common

namespace Wedb.Wildcard

variable {α : Type}

/-- A token is a star, here `none`, or the test of one symbol. -/
abbrev Token (α : Type) := Option (α → Bool)

/-- The language of a list of tokens. -/
inductive Matches : List (Token α) → List α → Prop
  | nil : Matches [] []
  | one {test : α → Bool} {symbol tokens symbols} (passes : test symbol) :
    Matches tokens symbols → Matches (some test :: tokens) (symbol :: symbols)
  | skip {tokens symbols} : Matches tokens symbols → Matches (none :: tokens) symbols
  | more {symbol tokens symbols} :
    Matches (none :: tokens) symbols → Matches (none :: tokens) (symbol :: symbols)

variable {tokens after : List (Token α)} {symbols ahead : List α} {symbol : α} {test : α → Bool}

theorem matches_one_iff :
    Matches (some test :: tokens) (symbol :: symbols) ↔ test symbol ∧ Matches tokens symbols := by
  constructor
  · rintro (_ | ⟨passes, rest⟩)
    exact ⟨passes, rest⟩
  · rintro ⟨passes, rest⟩
    exact .one passes rest

theorem matches_star_iff : Matches (none :: tokens) (symbol :: symbols) ↔
    Matches tokens (symbol :: symbols) ∨ Matches (none :: tokens) symbols := by
  constructor
  · rintro (_ | _ | rest | rest)
    · exact .inl rest
    · exact .inr rest
  · rintro (rest | rest)
    · exact .skip rest
    · exact .more rest

theorem matches_star_nil : Matches (none :: tokens) ([] : List α) ↔ Matches tokens [] := by
  constructor
  · rintro (_ | _ | rest | _)
    exact rest
  · exact .skip

/-- Two stars are one. -/
theorem matches_stars : Matches (none :: none :: tokens) symbols ↔
    Matches (none :: tokens) symbols := by
  refine ⟨fun matched => ?_, .skip⟩
  induction symbols with
  | nil => exact matches_star_nil.mp matched
  | cons symbol symbols ih =>
    rcases matches_star_iff.mp matched with rest | rest
    · exact rest
    · exact .more (ih rest)

/-- What a test behind a star takes, the star can take as well. -/
theorem matches_star_tail (matched : Matches (none :: some test :: tokens) (symbol :: symbols)) :
    Matches (none :: tokens) symbols := by
  induction symbols generalizing symbol with
  | nil =>
    rcases matches_star_iff.mp matched with rest | rest
    · exact .skip (matches_one_iff.mp rest).2
    · cases matches_star_nil.mp rest
  | cons next symbols ih =>
    rcases matches_star_iff.mp matched with rest | rest
    · exact .skip (matches_one_iff.mp rest).2
    · exact .more (ih rest)

/-- The matcher got from its last star to where it is by tests that passed. -/
structure Trails (after : List (Token α)) (ahead : List α) (tokens : List (Token α))
    (symbols : List α) : Prop where
  exact : Matches after ahead ↔ Matches tokens symbols
  later : Matches (none :: after) ahead → Matches (none :: tokens) symbols
  shorter : symbols.length ≤ ahead.length

theorem Trails.start : Trails tokens symbols tokens symbols := ⟨.rfl, id, Nat.le_refl _⟩

theorem Trails.one (trails : Trails after ahead (some test :: tokens) (symbol :: symbols))
    (passes : test symbol) : Trails after ahead tokens symbols where
  exact := trails.exact.trans (matches_one_iff.trans (and_iff_right passes))
  later matched := matches_star_tail (trails.later matched)
  shorter := Nat.le_of_succ_le trails.shorter

/-- The next star takes the place of the last one. -/
theorem Trails.star (trails : Trails after ahead (none :: tokens) symbols) :
    Matches (none :: after) ahead ↔ Matches (none :: tokens) symbols :=
  ⟨fun matched => matches_stars.mp (trails.later matched),
    fun matched => .skip (trails.exact.mpr matched)⟩

theorem Trails.finish (trails : Trails after ahead tokens []) :
    Matches (none :: after) ahead ↔ Matches tokens [] :=
  ⟨fun matched => matches_star_nil.mp (trails.later matched),
    fun matched => .skip (trails.exact.mpr matched)⟩

/-- A matcher that is stuck lets its last star take one symbol more. -/
theorem Trails.back (trails : Trails after (symbol :: ahead) tokens symbols)
    (stuck : ¬Matches tokens symbols) :
    Matches (none :: after) (symbol :: ahead) ↔ Matches (none :: after) ahead :=
  matches_star_iff.trans (or_iff_right fun matched => stuck (trails.exact.mp matched))

end Wedb.Wildcard
