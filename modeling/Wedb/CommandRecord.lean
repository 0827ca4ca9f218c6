/-
The record of a user's commands repeats the changes it records. But a rule that grants or takes all
commands, or takes the last one, forgets custom commands, and the scan of custom objects is read
back as a custom command.
-/

import Wedb.CommandNames

namespace Wedb.Acl

open Resp CommandPermissionSet Text List

section

variable {sha256 : Digest} {rule : Text}

theorem applyRules_op (notNs : rule.eqIgnoreAsciiCase (text "ns") = false)
    (user : User) (rest : List Text) :
    applyRules sha256 user (rule :: rest) =
      applyOp sha256 user rule >>= fun changed => applyRules sha256 changed rest := by
  rw [applyRules.eq_def]
  simp only [notNs, Bool.false_eq_true, if_false]

def Turns (sha256 : Digest) (before : User) (tokens : List Text) (after : User) : Prop :=
  ∀ rest, applyRules sha256 before (tokens ++ rest) = applyRules sha256 after rest

theorem Turns.nil (user : User) : Turns sha256 user [] user := fun _ => rfl

variable {first second third user changed : User}

theorem Turns.append {front back : List Text}
    (before : Turns sha256 first front second) (after : Turns sha256 second back third) :
    Turns sha256 first (front ++ back) third := by
  intro rest
  rw [append_assoc, before, after]

theorem Turns.applyRules_eq {tokens : List Text}
    (turns : Turns sha256 first tokens second) : applyRules sha256 first tokens = .ok second := by
  simpa [applyRules] using turns []

theorem Turns.of_op (notNs : rule.eqIgnoreAsciiCase (text "ns") = false)
    (applied : applyOp sha256 user rule = .ok changed) : Turns sha256 user [rule] changed := by
  intro rest
  rw [singleton_append, applyRules_op notNs, applied]
  rfl

theorem not_ns {sign : Char} {token : Text} (other : sign.toLower ≠ 'n') :
    Text.eqIgnoreAsciiCase (sign :: token) (text "ns") = false := by
  have letters : (text "ns").toAsciiLowercase = ['n', 's'] := by decide
  unfold Text.eqIgnoreAsciiCase
  rw [letters]
  simp [toAsciiLowercase, other]

variable {set : CommandPermissionSet}

def Replayed (sha256 : Digest) (set : CommandPermissionSet) : Prop :=
  ∀ user : User, Turns sha256 { user with commands := .new } set.description.words
    { user with commands := set }

theorem replayed_new : Replayed sha256 .new := fun _ => Turns.nil _

theorem words_appendToken (set : CommandPermissionSet) (sign : Char) (category : Bool)
    {token : Text} (solid : Text.Solid (sign :: (if category then ['@'] else []) ++ token)) :
    (set.appendToken sign category token).description.words =
      set.description.words ++ [sign :: (if category then ['@'] else []) ++ token] := by
  have single := words_of_solid solid (by simp)
  unfold appendToken
  by_cases empty : set.description = []
  · simpa [empty] using single
  · have spaced := words_append_space set.description
      (sign :: (if category then ['@'] else []) ++ token)
    rw [single] at spaced
    simpa [empty] using spaced

variable {set changed : CommandPermissionSet}

theorem Replayed.append {sign : Char} {category : Bool}
    {token : Text} (replayed : Replayed sha256 set)
    (same : changed.description = set.description) (other : sign.toLower ≠ 'n')
    (solid : Text.Solid (sign :: (if category then ['@'] else []) ++ token))
    (applied : ∀ user : User, applyOp sha256 { user with commands := set }
        (sign :: (if category then ['@'] else []) ++ token) =
      .ok { user with commands := changed.appendToken sign category token }) :
    Replayed sha256 (changed.appendToken sign category token) := by
  intro user
  rw [words_appendToken changed sign category solid, same]
  exact (replayed user).append (Turns.of_op (not_ns other) (applied user))

theorem eq_new_of_isEmpty (empty : set.isEmpty) (denied : set.customDenied = ∅) :
    set.setDescription [] = .new := by
  simp only [CommandPermissionSet.isEmpty, decide_eq_true_eq] at empty
  simp [setDescription, CommandPermissionSet.new, empty.1, empty.2, denied]

variable {character : Char} {name : Text} {changed : CommandPermissionSet}

def sign (grant : Bool) : Char := if grant then '+' else '-'

variable (grant : Bool)

theorem toLower_sign : (sign grant).toLower ≠ 'n' := by
  cases grant <;> decide

theorem isWhitespace_sign : isWhitespace (sign grant) = false := by
  cases grant <;> decide

theorem solid_cons {rest : Text} (ink : isWhitespace character = false) (solid : rest.Solid) :
    Text.Solid (character :: rest) := by
  intro letter inside
  rcases mem_cons.mp inside with rfl | later
  · exact ink
  · exact solid letter later

theorem isWhitespace_of_printable (lower : 33 ≤ character.toNat) (upper : character.toNat ≤ 126) :
    isWhitespace character = false := by
  simp only [isWhitespace, Bool.or_eq_false_iff, decide_eq_false_iff_not, beq_eq_false_iff_ne]
  omega

theorem solid_of_isRuleName (named : isRuleName name) : name.Solid := by
  simp only [isRuleName, Bool.and_eq_true, all_eq_true, Nat.ble_eq] at named
  exact fun character inside =>
    isWhitespace_of_printable (named.2 character inside).1 (named.2 character inside).2

theorem ofRule_of_solid (solid : rule.Solid) : AclOp.ofRule rule = AclOp.ofTrimmed rule := by
  rw [AclOp.ofRule, trim_of_solid solid]

theorem ofRule_command (named : isRuleName name) :
    AclOp.ofRule (sign grant :: name) = .command grant name := by
  rw [ofRule_of_solid (solid_cons (isWhitespace_sign grant) (solid_of_isRuleName named))]
  cases name with
  | nil => exact absurd named (by decide)
  | cons first others =>
    have plain : first ≠ '@' := by
      rintro rfl
      simp [isRuleName] at named
    cases grant <;> simp [sign, AclOp.ofTrimmed, plain]

theorem ofRule_category (solid : name.Solid) :
    AclOp.ofRule (sign grant :: '@' :: name) = .category grant name := by
  rw [ofRule_of_solid (solid_cons (isWhitespace_sign grant) (solid_cons (by decide) solid))]
  cases grant <;> rfl

theorem applyOp_command (user : User) (grant : Bool) (named : isRuleName name)
    (applied : user.commands.applyCommandOp name grant = .ok changed) :
    applyOp sha256 user (sign grant :: name) = .ok { user with commands := changed } := by
  rw [applyOp, ofRule_command grant named, AclOp.apply, applied]
  rfl

theorem setBitIdx_frame (set : CommandPermissionSet) (index : Nat) (on : Bool) :
    (set.setBitIdx index on).description = set.description ∧
      (set.setBitIdx index on).customAllowed = set.customAllowed ∧
      (set.setBitIdx index on).customDenied = set.customDenied := by
  unfold setBitIdx
  split <;> exact ⟨rfl, rfl, rfl⟩

theorem applyCommandBits_frame (set : CommandPermissionSet) (cmd : RespCommand) (on : Bool) :
    (set.applyCommandBits cmd on).description = set.description ∧
      (set.applyCommandBits cmd on).customAllowed = set.customAllowed ∧
      (set.applyCommandBits cmd on).customDenied = set.customDenied := by
  refine List.foldlRecOn (motive := fun after : CommandPermissionSet =>
      after.description = set.description ∧ after.customAllowed = set.customAllowed ∧
        after.customDenied = set.customDenied) _ _ (setBitIdx_frame set _ on)
      fun start framed extra _ => ?_
  obtain ⟨description, allowed, denied⟩ := setBitIdx_frame start extra.code on
  exact ⟨description.trans framed.1, allowed.trans framed.2.1, denied.trans framed.2.2⟩

theorem clear_frame (set : CommandPermissionSet) (cmd : RespCommand) :
    (set.clear cmd).description = set.description ∧
      (set.clear cmd).customAllowed = set.customAllowed ∧
      (set.clear cmd).customDenied = set.customDenied := by
  unfold CommandPermissionSet.clear
  split
  · exact ⟨rfl, rfl, rfl⟩
  · exact applyCommandBits_frame set cmd false

theorem allow_of_isEmpty (empty : set.isEmpty) (cmd : RespCommand) : set.allow cmd = false := by
  have none : set.bits = 0 := (of_decide_eq_true empty).1
  simp [CommandPermissionSet.allow, none]

theorem Replayed.appendOp {grant : Bool} {name : Text}
    (replayed : Replayed sha256 set) (same : changed.description = set.description)
    (named : isRuleName name)
    (applied : set.applyCommandOp name grant = .ok (changed.appendOp (sign grant) name)) :
    Replayed sha256 (changed.appendOp (sign grant) name) :=
  @Replayed.append sha256 set changed (sign grant) false name replayed same (toLower_sign grant)
    (solid_cons (isWhitespace_sign grant) (solid_of_isRuleName named)) fun _ =>
      applyOp_command _ grant named applied

variable {cmd : RespCommand}

theorem normalizeForAcls_of_nameable (nameable : Nameable cmd) : cmd.normalizeForAcls = cmd := by
  have valid := nameable.valid
  unfold validCmd at valid
  split at valid
  case isTrue real => exact real.2.2
  case isFalse => cases valid

theorem Replayed.addCommand (replayed : Replayed sha256 set)
    (nameable : Nameable cmd) (ordinary : cmd ≠ .coscan) :
    Replayed sha256 (set.addCommand cmd) := by
  obtain ⟨parsed, named⟩ := parseCommandName_commandName nameable ordinary
  have nonempty : commandName cmd ≠ [] := by
    intro empty
    rw [empty] at named
    exact absurd named (by decide)
  by_cases allowed : set.allow cmd && cmd.expandForAcls.all set.allow
  · have same : set.addCommand cmd = set := by
      simp [CommandPermissionSet.addCommand, normalizeForAcls_of_nameable nameable, allowed]
    rwa [same]
  · have changed : set.addCommand cmd = (set.grant cmd).appendOp (sign true) (commandName cmd) := by
      simp [CommandPermissionSet.addCommand, normalizeForAcls_of_nameable nameable, allowed,
        nonempty, sign]
    rw [changed]
    refine replayed.appendOp (applyCommandBits_frame set cmd true).1 named ?_
    rw [← changed]
    simp [CommandPermissionSet.applyCommandOp, parsed]

theorem Replayed.removeCommand (replayed : Replayed sha256 set)
    (nameable : Nameable cmd) (ordinary : cmd ≠ .coscan)
    (kept : set.isEmpty = false → (set.clear cmd).isEmpty → set.customDenied = ∅) :
    Replayed sha256 (set.removeCommand cmd) := by
  obtain ⟨parsed, named⟩ := parseCommandName_commandName nameable ordinary
  have norm := normalizeForAcls_of_nameable nameable
  obtain ⟨description, -, denied⟩ := clear_frame set cmd
  by_cases free : cmd.isNoAuth
  · have same : set.removeCommand cmd = set := by simp [CommandPermissionSet.removeCommand, free]
    rwa [same]
  by_cases allowed : set.allow cmd || cmd.expandForAcls.any set.allow
  swap
  · have same : set.removeCommand cmd = set := by
      simp [CommandPermissionSet.removeCommand, norm, allowed]
    rwa [same]
  by_cases empty : (set.clear cmd).isEmpty
  · have changed : set.removeCommand cmd = (set.clear cmd).setDescription [] := by
      simp [CommandPermissionSet.removeCommand, norm, free, allowed, empty]
    have inhabited : set.isEmpty = false := by
      by_contra nothing
      have none := @allow_of_isEmpty set (by simpa using nothing)
      simp [none] at allowed
    rw [changed, eq_new_of_isEmpty empty (denied.trans (kept inhabited empty))]
    exact replayed_new
  · have changed : set.removeCommand cmd =
        (set.clear cmd).appendOp (sign false) (commandName cmd) := by
      simp [CommandPermissionSet.removeCommand, norm, free, allowed, empty, sign]
    rw [changed]
    refine replayed.appendOp description named ?_
    rw [← changed]
    simp [CommandPermissionSet.applyCommandOp, parsed]

theorem lookupCategory_name : ∀ entry ∈ categoryTable,
    lookupCategory (text entry.1) = some (text entry.1, entry.2) ∧ (text entry.1).Solid := by
  decide +kernel

variable {bits : Bitmap} {category : Text}

theorem lookupCategory_canonical (found : lookupCategory category = some (name, bits)) :
    lookupCategory name = some (name, bits) ∧ name.Solid := by
  obtain ⟨entry, hit, same⟩ := Option.map_eq_some_iff.mp found
  cases same
  exact lookupCategory_name entry (mem_of_find?_eq_some hit)

theorem Replayed.appendCategoryOp {grant : Bool}
    {name : Text} (replayed : Replayed sha256 set) (same : changed.description = set.description)
    (solid : name.Solid)
    (applied : (if grant then set.addCategory name else set.removeCategory name) =
      .ok (changed.appendCategoryOp (sign grant) name)) :
    Replayed sha256 (changed.appendCategoryOp (sign grant) name) := by
  refine @Replayed.append sha256 set changed (sign grant) true name replayed same
    (toLower_sign grant) (solid_cons (isWhitespace_sign grant) (solid_cons (by decide) solid))
    fun user => ?_
  show applyOp sha256 _ (sign grant :: '@' :: name) = _
  rw [applyOp, ofRule_category grant solid]
  cases grant
  · have removed : set.removeCategory name = .ok (changed.appendCategoryOp (sign false) name) :=
      applied
    simp [AclOp.apply, removed, bind, Except.bind, pure, Except.pure,
      CommandPermissionSet.appendCategoryOp]
  · have added : set.addCategory name = .ok (changed.appendCategoryOp (sign true) name) := applied
    simp [AclOp.apply, added, bind, Except.bind, pure, Except.pure,
      CommandPermissionSet.appendCategoryOp]

theorem replayed_all : Replayed sha256 .all := by
  intro user
  have word : CommandPermissionSet.all.description.words = [sign true :: '@' :: text "all"] := by
    decide
  rw [word]
  refine Turns.of_op (not_ns (toLower_sign true)) ?_
  have found := (lookupCategory_name ("all", catAll) (by simp [categoryTable])).1
  have added : CommandPermissionSet.new.addCategory (text "all") = .ok .all := by
    simp only [addCategory, found, if_true]
    rfl
  rw [applyOp, ofRule_category true (by decide)]
  simp only [AclOp.apply, if_true, added]
  rfl

theorem Replayed.addCategory (replayed : Replayed sha256 set)
    (found : lookupCategory category = some (name, bits))
    (kept : bits = catAll → set.customAllowed = ∅)
    (added : set.addCategory category = .ok changed) : Replayed sha256 changed := by
  obtain ⟨foundName, solid⟩ := lookupCategory_canonical found
  have again : set.addCategory name = .ok changed := by
    rw [← added]
    simp [CommandPermissionSet.addCategory, found, foundName]
  simp only [CommandPermissionSet.addCategory, found] at added
  split at added
  case isTrue every =>
    obtain rfl := Except.ok.inj added
    have whole : set.setAll.setDescription (text "+@all") = .all := by
      simp [CommandPermissionSet.setAll, setDescription, CommandPermissionSet.all, kept every]
    rw [whole]
    exact replayed_all
  case isFalse =>
    split at added
    case isTrue =>
      cases added
      exact replayed
    case isFalse =>
      cases added
      exact @Replayed.appendCategoryOp sha256 set (set.orBits bits) true name replayed rfl solid
        again

theorem Replayed.removeCategory (replayed : Replayed sha256 set)
    (found : lookupCategory category = some (name, bits))
    (keptAll : bits = catAll → set.customDenied = ∅)
    (kept : set.isEmpty = false → (set.andnotBitsProtectNoauth bits).isEmpty → set.customDenied = ∅)
    (removed : set.removeCategory category = .ok changed) : Replayed sha256 changed := by
  obtain ⟨foundName, solid⟩ := lookupCategory_canonical found
  have again : set.removeCategory name = .ok changed := by
    rw [← removed]
    simp [CommandPermissionSet.removeCategory, found, foundName]
  simp only [CommandPermissionSet.removeCategory, found] at removed
  split at removed
  case isTrue every =>
    cases removed
    have nothing : set.clearAll.setDescription [] = .new := by
      simp [clearAll, setDescription, CommandPermissionSet.new, keptAll every]
    rw [nothing]
    exact replayed_new
  case isFalse =>
    split at removed
    case isTrue =>
      cases removed
      exact replayed
    case isFalse some =>
      split at removed
      case isTrue empty =>
        cases removed
        have inhabited : set.isEmpty = false := by
          by_contra nothing
          have isEmpty : set.isEmpty := by simpa using nothing
          have none : set.bits = 0 := (of_decide_eq_true isEmpty).1
          simp [isCategoryAnyAllowed, none] at some
        rw [eq_new_of_isEmpty empty (kept inhabited empty)]
        exact replayed_new
      case isFalse =>
        cases removed
        exact @Replayed.appendCategoryOp sha256 set (set.andnotBitsProtectNoauth bits) false name
          replayed rfl solid again

theorem isAlphanum_toLower (character : Char) :
    character.toLower.isAlphanum = character.isAlphanum :=
  forall_toLower (fun left right => right.isAlphanum = left.isAlphanum) (fun _ => rfl)
    (by decide) character

theorem isCustomNameCharacter_toLower (character : Char) :
    isCustomNameCharacter character.toLower = isCustomNameCharacter character :=
  forall_toLower
    (fun left right => isCustomNameCharacter right = isCustomNameCharacter left) (fun _ => rfl)
    (by decide) character

theorem isValidCustomCommandName_toAsciiLowercase (name : Text) :
    isValidCustomCommandName name.toAsciiLowercase = isValidCustomCommandName name := by
  cases name with
  | nil => rfl
  | cons first rest =>
    simp [isValidCustomCommandName, toAsciiLowercase, isAlphanum_toLower,
      all_map, Function.comp_def, isCustomNameCharacter_toLower]

theorem toNat_of_isAlphanum {character : Char} (letter : character.isAlphanum) :
    48 ≤ character.toNat ∧ character.toNat ≤ 122 ∧ character.toNat ≠ 64 := by
  change ((decide (character.val ≥ 'A'.val ∧ character.val ≤ 'Z'.val) ||
    (decide (character.val ≥ 'a'.val) && decide (character.val ≤ 'z'.val))) ||
    (decide (character.val ≥ '0'.val) && decide (character.val ≤ '9'.val))) = true at letter
  simp only [Bool.or_eq_true, decide_eq_true_eq, Bool.and_eq_true, ge_iff_le,
    UInt32.le_iff_toNat_le, Char.reduceVal, UInt32.reduceToNat] at letter
  have code : character.val.toNat = character.toNat := rfl
  omega

theorem printable_of_isCustomNameCharacter (valid : isCustomNameCharacter character) :
    33 ≤ character.toNat ∧ character.toNat ≤ 126 := by
  simp only [isCustomNameCharacter, Bool.or_eq_true, beq_iff_eq] at valid
  rcases valid with (((letter | rfl) | rfl) | rfl) | rfl
  · have bounds := toNat_of_isAlphanum letter
    omega
  all_goals decide

theorem isRuleName_of_valid (valid : isValidCustomCommandName name) : isRuleName name := by
  cases name with
  | nil => exact absurd valid (by decide)
  | cons first rest =>
    simp only [isValidCustomCommandName, Bool.and_eq_true, all_eq_true] at valid
    obtain ⟨lower, upper, notAt⟩ := toNat_of_isAlphanum valid.1
    have plain : first ≠ '@' := by
      rintro rfl
      exact notAt rfl
    simp only [isRuleName, isEmpty_cons, Bool.not_false, Bool.true_and, head?_cons,
      Bool.and_eq_true, bne_iff_ne, ne_eq, Option.some.injEq, plain, not_false_eq_true, true_and,
      all_eq_true, Nat.ble_eq]
    intro character inside
    rcases mem_cons.mp inside with rfl | later
    · omega
    · exact printable_of_isCustomNameCharacter (valid.2 character later)

theorem Replayed.customCommand {grant : Bool} (replayed : Replayed sha256 set)
    (unknown : parseCommandName name = none)
    (applied : set.applyCommandOp name grant = .ok changed) : Replayed sha256 changed := by
  have unknownLower := (parseCommandName_toAsciiLowercase name).trans unknown
  by_cases valid : isValidCustomCommandName name
  swap
  · simp [applyCommandOp, unknown, valid] at applied
  have validLower := (isValidCustomCommandName_toAsciiLowercase name).trans valid
  have named := isRuleName_of_valid validLower
  have again : set.applyCommandOp name.toAsciiLowercase grant = .ok changed := by
    rw [← applied]
    cases grant <;> simp [applyCommandOp, unknown, unknownLower, valid, validLower,
      allowCustomCommand, denyCustomCommand, addCustomCommand, removeCustomCommand]
  cases grant with
  | true =>
    simp only [applyCommandOp, unknown, valid, if_true,
      allowCustomCommand, Bool.not_true, Bool.false_eq_true, if_false]
      at applied
    split at applied
    case isTrue =>
      cases applied
      exact replayed
    case isFalse =>
      cases applied
      exact @Replayed.appendOp sha256 set (set.addCustomCommand name) true _ replayed rfl named
        again
  | false =>
    simp only [applyCommandOp, unknown, valid, if_true, if_false,
      denyCustomCommand, Bool.not_true, Bool.false_eq_true]
      at applied
    split at applied
    case isTrue =>
      cases applied
      exact replayed
    case isFalse =>
      cases applied
      exact @Replayed.appendOp sha256 set (set.removeCustomCommand name) false _ replayed rfl
        named again

end

end Wedb.Acl
